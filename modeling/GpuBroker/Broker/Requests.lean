/-
This file is the operations of the broker under the contract: submissions,
cancellations, reclaims and the rest, each from what it reads to what it writes.

What an operation raises goes to its caller, so these are the operations of a
setting in which any error may be raised.
-/
import GpuBroker.Broker.Passes

namespace GpuBroker.Broker

open Library

variable {γ : Type} {setting : Setting γ} {world next : World γ}

/-! ### Submissions -/

theorem safe_getUser {user : UserId} (loose : ∀ error, setting.raises error) :
    setting.Safe (getUser user)
      (fun found next => setting.others world next ∧ found.userId = user ∧
        (setting.alone → world.db.users.find user = some found)) world := by
  refine safe_query fun read others _ => ?_
  split
  · next found hit =>
    refine fun final later _ => ⟨setting.trans others later, Table.find_key hit, fun alone => ?_⟩
    rw [setting.still alone others] at hit
    exact hit
  · exact Program.Safe.fail (loose _)

/-- A balance read by a process that is alone is what the account is in the month of a reading the
clock gave meanwhile. -/
theorem safe_balance {user : UserId} {currency : Currency} (loose : ∀ error, setting.raises error) :
    setting.Safe (balance user currency)
      (fun balance next => Looked setting world next ∧ (setting.alone → next = world.ticked ∧
        ∃ found, world.db.users.find user = some found ∧ balance =
          let account := world.db.accountOf user currency
            (world.config.calendar.period (world.clock world.asked))
          { budget := found.budget currency, held := account.1, spent := account.2 }))
      world := by
  refine safe_settings fun configured others _ => safe_now fun asked later _ => ?_
  refine Program.Safe.bind (safe_getUser loose) fun found current _ user => ?_
  refine safe_query fun account third _ final last _ => ?_
  have looked : Looked setting world final :=
    (looked_others others).trans <| (looked_others later).trans <| looked_ticked.trans <|
      (looked_others user.1).trans ((looked_others third).trans (looked_others last))
  refine ⟨looked, fun alone => ?_⟩
  have same := user.2.2 alone
  rw [setting.still alone last, setting.still alone third, setting.still alone user.1,
    setting.still alone later, setting.still alone others]
  rw [setting.still alone later, setting.still alone others] at same
  exact ⟨rfl, found, same, rfl⟩

/-- What admission establishes when it admits a job. -/
structure Admitted (setting : Setting γ) (world next : World γ) (user : UserId)
    (currency : Currency) (reserved : Decimal) (read : Admission) : Prop where
  positive : 0 < reserved
  waiting : read.queued < next.config.maxQueuedJobsPerUser
  affordable : reserved ≤ read.balance.available
  looked : Looked setting world next
  exactly : setting.alone → ∃ reading < next.asked, ∃ found,
    next.db.users.find user = some found ∧ read.queued = next.db.queuedCount user ∧
      read.balance =
        let account := next.db.accountOf user currency
          (next.config.calendar.period (next.clock reading))
        { budget := found.budget currency, held := account.1, spent := account.2 }

theorem Persists.maxQueued (persists : Persists world next) :
    next.config.maxQueuedJobsPerUser = world.config.maxQueuedJobsPerUser := by
  show next.config.unpriced.maxQueuedJobsPerUser = world.config.unpriced.maxQueuedJobsPerUser
  rw [persists.settings]

theorem safe_refusalOf {config : BrokerConfig} {user : User} {currency : Currency}
    {reserved : Decimal} (loose : ∀ error, setting.raises error)
    (limit : config.maxQueuedJobsPerUser = world.config.maxQueuedJobsPerUser) :
    setting.Safe (refusalOf config user currency reserved)
      (fun verdict next => Looked setting world next ∧ ∀ read, verdict = .ok read →
        Admitted setting world next user.userId currency reserved read) world := by
  have refused : ∀ {current : World γ} {refusal : Refusal}, Looked setting world current →
      setting.Safe (pure (.error refusal) : Op γ (Except Refusal Admission))
        (fun verdict next => Looked setting world next ∧ ∀ read, verdict = .ok read →
          Admitted setting world next user.userId currency reserved read) current :=
    fun looked final others _ => ⟨looked.trans (looked_others others), fun _ => nofun⟩
  have here := looked_others (setting.refl world)
  unfold refusalOf
  split
  · exact refused here
  · split
    · exact refused here
    · next capped =>
      refine safe_query fun counted others _ => ?_
      have looked := looked_others others
      split
      · exact refused looked
      · next short =>
        refine Program.Safe.bind (safe_balance loose) fun balance current _ read => ?_
        have whole := looked.trans read.1
        split
        · exact refused whole
        · next paid =>
          refine fun final later _ => ⟨whole.trans (looked_others later), fun admission same => ?_⟩
          cases same
          refine ⟨?_, ?_, ?_, whole.trans (looked_others later), fun alone => ?_⟩
          · unfold checkJobCap at capped
            split at capped
            · cases capped
            · next positive => exact not_le.mp positive
          · rw [(whole.trans (looked_others later)).keeps.1.maxQueued, ← limit]
            unfold checkQueueDepth at short
            split at short
            · assumption
            · cases short
          · unfold checkUserBudget at paid
            split at paid
            · assumption
            · cases paid
          · obtain ⟨ticked, found, hit, same⟩ := read.2 alone
            rw [setting.still alone later, ticked]
            exact ⟨counted.asked, Nat.lt_succ_self _, found, hit, rfl, same⟩

theorem validateRequest_typed {config : BrokerConfig} {gpuType : String} {hours : ℚ}
    {command : String} {gpu : GpuType}
    (valid : validateRequest config gpuType hours command = .ok gpu) : Typed config gpuType := by
  unfold validateRequest at valid
  cases found : config.gpu gpuType with
  | error error =>
      rw [found] at valid
      cases valid
  | ok other => exact ⟨other, found⟩

theorem safe_recordRefusal {new : NewJob} {refusal : Refusal} {text : String}
    (refuses : ∀ job refusal world, setting.makes (.refuse job refusal) world)
    (typed : Typed world.config new.gpuType) :
    setting.Safe (recordRefusal new refusal text) (fun _ _ => True) world := by
  refine safe_now fun asked others _ => safe_executing (fun current later _ => ?_)
    fun _ _ _ _ _ _ _ _ _ _ => trivial
  have persists := ((setting.persists others).trans asked.ticked_quiet.persists).trans
    (setting.persists later)
  exact ⟨refuses _ _ _, ⟨persists.typed typed, rfl, rfl, rfl, rfl, rfl⟩, trivial, fun _ => trivial,
    fun _ => trivial⟩

/-- A job that was admitted is created on what admission had read. -/
theorem safe_createJob {new : NewJob} {read : Admission} {start : World γ}
    (loose : ∀ error, setting.raises error)
    (creates : ∀ job read world, setting.makes (.create job read) world)
    (typed : Typed world.config new.gpuType)
    (admitted : Admitted setting start world new.userId new.currency new.reserved read) :
    setting.Safe (createJob new read) (fun _ _ => True) world := by
  refine Program.Safe.bind (safe_getUser loose) fun user found _ member => ?_
  refine safe_now fun asked others _ => safe_executing (fun current later _ => ?_)
    fun _ _ _ _ _ _ _ _ _ _ => trivial
  have persists := (((setting.persists member.1).trans (setting.persists others)).trans
    asked.ticked_quiet.persists).trans (setting.persists later)
  refine ⟨creates _ _ _, ⟨persists.typed typed, rfl, quantize_nonneg admitted.positive.le, rfl,
    rfl, rfl, rfl, (setting.persists later).shown asked.ticked_shown, ?_, new.reserved,
    admitted.positive, rfl, admitted.affordable⟩, trivial, fun alone => ?_, fun _ => trivial⟩
  · rw [persists.maxQueued]
    exact admitted.waiting
  · obtain ⟨reading, before, exactly⟩ := admitted.exactly alone
    rw [setting.still alone later]
    rw [setting.still alone others, setting.still alone member.1]
    exact ⟨world.ticked_last.symm, reading, before.trans (Nat.lt_succ_self _), exactly⟩

/-- A submission is admitted on what it read, or refused. -/
theorem safe_submit {request : Submission} {text : Refusal → String}
    (loose : ∀ error, setting.raises error)
    (creates : ∀ job read world, setting.makes (.create job read) world)
    (refuses : ∀ job refusal world, setting.makes (.refuse job refusal) world) :
    setting.Safe (submit request text) (fun _ _ => True) world := by
  refine safe_settings fun configured others _ => ?_
  refine safe_orRaise (fun _ _ => loose _) fun gpu valid => ?_
  refine Program.Safe.bind (safe_getUser loose) fun user known _ member => ?_
  have first := setting.persists member.1
  refine Program.Safe.bind (safe_refusalOf loose first.maxQueued.symm)
    fun verdict judged _ verdicts => ?_
  have typed := (first.trans verdicts.1.keeps.1).typed (validateRequest_typed valid)
  cases verdict with
  | error refusal =>
      exact Program.Safe.bind (safe_recordRefusal refuses typed) fun _ _ _ _ _ _ _ => trivial
  | ok read =>
      have owner := member.2.1
      have admitted := verdicts.2 read rfl
      rw [member.2.1] at admitted
      exact Program.Safe.bind (safe_createJob loose creates typed admitted) fun _ _ _ _ _ _ _ => trivial

/-! ### Members -/

/-- One transaction about the members, which no job depends on. -/
theorem safe_member {α : Type} {write : Write} {value : α}
    (makes : ∀ current, setting.makes write current) (sound : ∀ current : World γ, Sound current write)
    (named : Named setting.outside write)
    (exactly : ∀ current, Exact setting.outside current write)
    (unspent : ∀ current : World γ, Unspent current write) :
    setting.Safe (executing write value) (fun _ _ => True) world :=
  safe_executing (fun current _ _ =>
    ⟨makes current, sound current, named, fun _ => exactly current, fun _ => unspent current⟩)
    fun _ _ _ _ _ _ _ _ _ _ => trivial

theorem safe_upsertUser {user : UserId} {displayName : Option String}
    {budgetUsd budgetGpuHours : Option Decimal} {isAdmin : Option Bool}
    (free : ∀ write world, setting.makes write world) :
    setting.Safe (upsertUser user displayName budgetUsd budgetGpuHours isAdmin) (fun _ _ => True)
      world := by
  refine safe_settings fun configured _ _ => safe_query fun existing _ _ => safe_now fun asked _ _ => ?_
  cases existing.db.users.find user with
  | none => exact safe_member (free _) (fun _ => trivial) trivial (fun _ => trivial) fun _ => trivial
  | some found => exact safe_member (free _) (fun _ => trivial) trivial (fun _ => trivial) fun _ => trivial

theorem safe_suspendUser {user : UserId} {reason actor : String}
    (loose : ∀ error, setting.raises error) (free : ∀ write world, setting.makes write world) :
    setting.Safe (suspendUser user reason actor) (fun _ _ => True) world :=
  Program.Safe.bind (safe_getUser loose) fun _ _ _ _ => safe_now fun _ _ _ =>
    safe_member (free _) (fun _ => trivial) trivial (fun _ => trivial) fun _ => trivial

theorem safe_restoreUser {user : UserId} (loose : ∀ error, setting.raises error)
    (free : ∀ write world, setting.makes write world) :
    setting.Safe (restoreUser user) (fun _ _ => True) world :=
  Program.Safe.bind (safe_getUser loose) fun _ _ _ _ =>
    safe_member (free _) (fun _ => trivial) trivial (fun _ => trivial) fun _ => trivial

/-! ### Stopping jobs -/

/-- A job that is found by its short id is a good copy of its row. -/
theorem safe_findJob {pre : String} (loose : ∀ error, setting.raises error) :
    setting.Safe (findJob pre)
      (fun job next => ∃ found : World γ, setting.others world found ∧
        found.db.jobs.find job.jobId = some job ∧ setting.others found next ∧
        setting.Copy job next) world := by
  refine safe_query fun listed others booked => ?_
  split
  · exact Program.Safe.fail (loose _)
  · next job only =>
    have row : job ∈ listed.db.jobs.rows := (List.mem_filter.mp
      ((List.mergeSort_perm _ _).mem_iff.mp (only ▸ List.mem_singleton_self job))).1
    have found := Table.find_of_mem row
    exact fun final later _ =>
      ⟨listed, others, found, later, (keeps_others later).copy (copy_of_find booked found)⟩
  · exact Program.Safe.fail (loose _)

/-- Whatever machine a record names has answered that it is stopped. -/
def Stopped (setting : Setting γ) (site : Site γ) (job : Job) (world : World γ) : Prop :=
  ∀ name handle backend, truthy job.backend = some name → truthy job.backendHandle = some handle →
    site.backend name = some backend → ∃ (earlier : World γ) (why : String),
      Looked setting (earlier.called (backend.terminate handle why earlier.cloud).2) world

theorem Stopped.looked {site : Site γ} {job : Job} (stopped : Stopped setting site job world)
    (looked : Looked setting world next) : Stopped setting site job next := by
  intro name handle backend named held found
  obtain ⟨earlier, why, rest⟩ := stopped name handle backend named held found
  exact ⟨earlier, why, rest.trans looked⟩

/-- Accesses that write nothing: of the others, and of its own. -/
def Silent (setting : Setting γ) : World γ → World γ → Prop :=
  Relation.ReflTransGen fun before after =>
    setting.others before after ∨ setting.contract.guarantee none before after

theorem silent_others (moved : setting.others world next) : Silent setting world next :=
  .single (Or.inl moved)

/-- Stopping the machine of a record keeps every copy and the room in the pool. -/
theorem safe_terminateHeld {site : Site γ} {job : Job} {why : String}
    (ends : ∀ backend ∈ site.backends, setting.Ends backend) :
    setting.Safe (terminateHeld site job why)
      (fun _ next => setting.Keeps none world next ∧ (setting.alone → Steady world next) ∧
        Stopped setting site job next ∧ Silent setting world next) world := by
  unfold terminateHeld
  split
  · next name handle named held =>
    split
    · next backend found =>
      have mine := ends backend (Site.backend_mem found).1
      have unfolded : (externally (backend.terminate handle why) : Op γ Unit) =
          externally (backend.terminate handle why) >>= pure := by
        show Program.access none _ _ = Program.access none _ _
        congr 1
        funext answer
        cases answer <;> rfl
      rw [unfolded]
      refine safe_externally (fun cloud => ⟨_, mine.terminate handle why cloud⟩)
        (mine.stuck handle why) fun current _ others _ _ final later _ => ⟨?_, fun alone => ?_, ?_, ?_⟩
      · exact (keeps_call _ others).trans (keeps_others later)
      · exact (steady_call _ others alone).trans (steady_others later alone)
      · intro name' handle' backend' named' held' found'
        rw [named] at named'
        rw [held] at held'
        cases named'
        cases held'
        rw [found] at found'
        cases found'
        exact ⟨current, why, looked_others later⟩
      · have call : Silent setting current _ := .single (Or.inr ⟨current.called_quiet _, _,
          mine.terminate handle why current.cloud⟩)
        exact ((silent_others others).trans call).trans (silent_others later)
    · next missing =>
      refine fun final others _ => ⟨keeps_others others, fun alone => steady_others others alone, ?_,
        silent_others others⟩
      intro name' handle' backend named' _ found
      rw [named] at named'
      cases named'
      rw [missing] at found
      cases found
  · next unheld =>
    refine fun final others _ => ⟨keeps_others others, fun alone => steady_others others alone, ?_,
      silent_others others⟩
    intro name handle backend named held _
    exact absurd held (unheld name handle named)

theorem safe_authorize {job : Job} {actor : Option UserId} {admin : Bool}
    (loose : ∀ error, setting.raises error) :
    setting.Safe (authorize job actor admin) (fun _ next => setting.others world next) world := by
  have allowed : ∀ {current : World γ}, setting.others world current →
      setting.Safe (pure () : Op γ Unit) (fun _ next => setting.others world next) current :=
    fun others final later _ => setting.trans others later
  unfold authorize
  split
  · exact allowed (setting.refl world)
  · split
    · exact allowed (setting.refl world)
    · refine safe_query fun current others _ => ?_
      split
      · split
        · exact allowed others
        · exact Program.Safe.fail (loose _)
      · exact Program.Safe.fail (loose _)

/-- A cancellation stops the machine a job has before it moves the job. -/
theorem safe_cancel {site : Site γ} {pre : String} {actor : Option UserId} {admin : Bool}
    (loose : ∀ error, setting.raises error)
    (ends : ∀ backend ∈ site.backends, setting.Ends backend)
    (makes : ∀ job change now outstanding (found current : World γ), setting.others world found →
      found.db.jobs.find job.jobId = some job → Silent setting found current →
      Stopped setting site job current →
      setting.makes (.move job .cancelled change now outstanding) current) :
    setting.Safe (cancel site pre actor admin) (fun _ _ => True) world := by
  refine Program.Safe.bind (safe_findJob loose) fun job listed _ hit => ?_
  obtain ⟨found, first, row, second, copy⟩ := hit
  refine Program.Safe.bind (safe_authorize loose) fun _ allowed _ third => ?_
  split
  · exact Program.Safe.fail (loose _)
  · next live =>
    refine Program.Safe.bind (safe_terminateHeld ends) fun _ stopped _ ended => ?_
    have copyHere := ended.1.copy ((keeps_others third).copy copy)
    refine Program.Safe.weaken (safe_transition ⟨Or.inr (loose _), fun now outstanding => ?_,
      by decide, rfl, rfl, ?_, rfl, by simp⟩ copyHere (Licence.free (Or.inr (by decide)) fun _ _ => nofun))
      fun _ _ _ _ => trivial
    · exact makes job _ now outstanding found stopped first row
        (((silent_others second).trans (silent_others third)).trans ended.2.2.2) ended.2.2.1
    · exact (Bool.and_false _).symm

theorem safe_askToCancel {pre actor : String} (loose : ∀ error, setting.raises error)
    (notes : setting.Notes) :
    setting.Safe (askToCancel pre actor) (fun _ _ => True) world := by
  refine Program.Safe.bind (safe_findJob loose) fun job listed _ hit => ?_
  obtain ⟨_, _, _, _, copy⟩ := hit
  exact Program.Safe.weaken (safe_requestCancel copy fun _ => notes.touch _ _ _ _ trivial)
    fun _ _ _ _ => trivial

/-! ### Reclaiming idle jobs -/

theorem safe_idleJobs :
    setting.Safe (idleJobs : Op γ (List IdleVerdict))
      (fun verdicts next => setting.Copies JobState.active (verdicts.map IdleVerdict.job) next)
      world := by
  refine safe_query fun listed others booked => ?_
  have copies : setting.Copies JobState.active listed.db.activeJobs listed := copies_listJobs booked
  refine Program.Safe.bind (safe_evaluateAll fun job member => (copies.copy job member).1)
    fun verdicts last _ judged final later _ => ?_
  have whole := (judged.2.trans (looked_others later)).keeps
  have kept : setting.Copies JobState.active (verdicts.map IdleVerdict.job) final := by
    rw [judged.1]
    exact copies.keeps whole
  have filtered : ((verdicts.filter IdleVerdict.idle).map IdleVerdict.job).Sublist
      (verdicts.map IdleVerdict.job) := List.filter_sublist.map _
  have idle : setting.Copies JobState.active ((verdicts.filter IdleVerdict.idle).map IdleVerdict.job)
      final :=
    ⟨kept.distinct.sublist (filtered.map _), fun job member => kept.copy job (filtered.subset member),
      fun job member => kept.state job (filtered.subset member)⟩
  exact idle.perm ((List.mergeSort_perm _ _).map _)

theorem safe_reclaimable {verdict : IdleVerdict} :
    setting.Safe (reclaimable verdict) (fun _ next => Looked setting world next) world := by
  unfold reclaimable
  split
  · exact fun final others _ => looked_others others
  · split
    · exact safe_now fun asked others _ final later _ =>
        (looked_others others).trans (looked_ticked.trans (looked_others later))
    · exact fun final others _ => looked_others others

theorem safe_reclaimOne {site : Site γ} {verdict : IdleVerdict}
    (loose : ∀ error, setting.raises error) (notes : setting.Notes)
    (free : ∀ write world, setting.makes write world)
    (ends : ∀ backend ∈ site.backends, setting.Ends backend)
    (copy : setting.Copy verdict.job world) (active : verdict.job.state.active = true) :
    setting.WorksOn verdict.job.jobId (reclaimOne site verdict) world := by
  refine safe_settings fun configured others _ => safe_now fun asked later _ => ?_
  have looked : Looked setting world asked.ticked :=
    (looked_others others).trans ((looked_others later).trans looked_ticked)
  have copyHere := looked.keeps.copy copy
  refine Program.Safe.bind (safe_notify notes copyHere.present) fun _ told _ first => ?_
  refine Program.Safe.bind (safe_appendLog notes (first.keeps.copy copyHere).present)
    fun _ logged _ second => ?_
  refine Program.Safe.bind (safe_terminateHeld ends) fun _ stopped _ ended => ?_
  have keeps := (looked.noted.trans (first.trans second)).keeps.trans ended.1
  refine Program.Safe.bind (safe_transition (asks_stop (stops_free free) active (Or.inr (loose _)) rfl rfl rfl rfl
    rfl)
    (keeps.copy copy) (Licence.free (Or.inr (by decide)) fun _ _ => nofun))
    fun _ moved _ move final last _ => ?_
  exact (keeps.weaken.trans move.keeps).trans (keeps_others last).weaken

theorem safe_reclaimNext {site : Site γ} {enabled : Bool} {report : ReclaimReport}
    {verdict : IdleVerdict} (loose : ∀ error, setting.raises error) (notes : setting.Notes)
    (free : ∀ write world, setting.makes write world)
    (ends : ∀ backend ∈ site.backends, setting.Ends backend)
    (copy : setting.Copy verdict.job world) (active : verdict.job.state.active = true) :
    setting.WorksOn verdict.job.jobId (reclaimNext site enabled report verdict) world := by
  refine Program.Safe.bind safe_reclaimable fun allowed current _ looked => ?_
  have idle : ∀ report : ReclaimReport, setting.Safe (pure report : Op γ ReclaimReport)
      (fun _ next => setting.Keeps (some verdict.job.jobId) world next) current :=
    fun report final others _ => (looked.trans (looked_others others)).keeps.weaken
  split
  · simp only
    split
    · refine Program.Safe.bind (safe_reclaimOne loose notes free ends (looked.keeps.copy copy) active)
        fun _ last _ keeps final others _ => ?_
      exact (looked.keeps.weaken.trans keeps).trans (keeps_others others).weaken
    · exact idle _
  · exact idle _

theorem safe_reclaim {site : Site γ} {force : Bool} (loose : ∀ error, setting.raises error)
    (notes : setting.Notes) (free : ∀ write world, setting.makes write world)
    (ends : ∀ backend ∈ site.backends, setting.Ends backend) :
    setting.Safe (reclaim site force) (fun _ _ => True) world := by
  refine safe_settings fun configured _ _ => ?_
  refine Program.Safe.bind safe_idleJobs fun verdicts listed booked copies => ?_
  refine Program.Safe.bind (Program.Safe.foldlM (fun verdicts _ current =>
      setting.Copies JobState.active (verdicts.map IdleVerdict.job) current) ?_ ?_ booked copies)
    fun report last _ _ => Program.Safe.bind safe_idleJobs fun _ _ _ _ _ _ _ => trivial
  · exact fun verdicts report before after moved _ copies => copies.keeps (keeps_others moved)
  · intro verdict verdicts report current _ copies
    exact Program.Safe.weaken (safe_reclaimNext loose notes free ends
      (copies.copy _ List.mem_cons_self) (copies.state _ List.mem_cons_self))
      fun _ _ _ keeps => copies.tail keeps

/-! ### Abandoned capacity and prices -/

theorem safe_recordAbandoned {handle : String} {job : Option JobId} {user : Option UserId}
    {currency : Currency} {burned : Decimal} (free : ∀ write world, setting.makes write world) :
    setting.Safe (recordAbandoned handle job user currency burned) (fun _ _ => True) world := by
  refine safe_query fun charged _ _ => ?_
  simp only
  split
  · exact fun _ _ _ => trivial
  · next positive =>
    refine safe_query fun known others _ => safe_query fun owned later _ => ?_
    refine safe_now fun asked third _ => safe_executing (fun current fourth _ =>
      ⟨free _ _, ⟨not_le.mp positive, (setting.persists fourth).shown asked.ticked_shown, ?_⟩, trivial,
        fun _ => trivial, fun _ => trivial⟩) fun _ _ _ _ _ _ _ _ _ _ => trivial
    intro id member
    obtain ⟨row, found⟩ := Option.isSome_iff_exists.mp (Option.mem_filter_iff.mp member).2
    have persists := (((setting.persists later).trans (setting.persists third)).trans
      asked.ticked_quiet.persists).trans (setting.persists fourth)
    obtain ⟨after, hasAfter, _⟩ := persists.jobs id row found
    exact Option.isSome_iff_exists.mpr ⟨after, hasAfter⟩

theorem safe_reap {orphans : List Orphan} (free : ∀ write world, setting.makes write world)
    (booked : Booked world) : setting.Safe (reap orphans) (fun _ _ => True) world := by
  refine Program.Safe.foldlM (fun _ _ _ => True) (fun _ _ _ _ _ _ _ => trivial)
    (fun orphan _ _ current _ _ => ?_) booked trivial
  split
  · exact Program.Safe.bind (safe_recordAbandoned free) fun _ _ _ _ _ _ _ => trivial
  · exact fun _ _ _ => trivial

/-! ### Every operation -/

/-- Every operation is safe where it may make its transactions and raise any error. -/
theorem safe_operation {site : Site γ} {text : Refusal → String} (operation : Operation)
    (runs : setting.Runs site) (loose : ∀ error, setting.raises error)
    (free : ∀ write world, setting.makes write world) (sole : setting.Sole) (booked : Booked world) :
    setting.Safe (operation.program site text) (fun _ _ => True) world := by
  have notes : setting.Notes := ⟨fun _ _ _ _ _ => free _ _, fun _ _ => free _, fun _ => free _⟩
  have done : ∀ {α : Type} {program : Op γ α}, setting.Safe program (fun _ _ => True) world →
      setting.Safe (program >>= fun _ => pure ()) (fun _ _ => True) world :=
    fun safe => Program.Safe.bind safe fun _ _ _ _ _ _ _ => trivial
  cases operation with
  | upsertUser => exact done (safe_upsertUser free)
  | suspendUser => exact done (safe_suspendUser loose free)
  | restoreUser => exact done (safe_restoreUser loose free)
  | submit => exact done (safe_submit loose (fun _ _ => free _) fun _ _ => free _)
  | tick => exact done (safe_tick runs notes free sole fun _ _ _ => loose _)
  | cancel => exact done (safe_cancel loose runs.ends fun _ _ _ _ _ _ _ _ _ _ => free _ _)
  | requestCancel => exact done (safe_askToCancel loose notes)
  | reclaim => exact done (safe_reclaim loose notes free runs.ends)
  | reap => exact safe_reap free booked
  | refreshPrices =>
      exact safe_member (free _) (fun _ => trivial) trivial (fun _ => trivial) fun _ => trivial

end GpuBroker.Broker
