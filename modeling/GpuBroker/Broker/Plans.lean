/-
This file is the dry run: `plan`, which takes the decisions of a pass without
acting on them, beside the pass that acts on each before the next is taken.

Both walk the queue by the same rules, but the pass that acts takes a slot with
every launch, and the dry run takes none. What each decides is a function of
the queue and of the free slots it finds, so the two agree exactly when the
jobs that are let through find slots enough where they go, one after another.
-/
import GpuBroker.Broker.Histories

namespace GpuBroker.Broker

open Library

variable {γ α β : Type}

/-! ### The dry run and the trace of a pass -/

/-- What the scheduler concluded about one queued job on one pass. -/
structure Decision where
  job : Job
  action : Action
  backend : Option String
  deriving DecidableEq

/-- The decision that a consumer is handed. -/
def Decision.of (job : Job) (action : Action) (placement : Option (Placement γ)) : Decision :=
  ⟨job, action, placement.map fun placement => placement.backend.name⟩

/-- A dry run: what a tick would do, with nothing done. -/
structure DryRunPlan where
  madeAt : Time
  decisions : List Decision
  checks : List (JobId × String)
  problems : List (JobId × String)

/-- Note a decision, and ask the backend it names whether the launch would succeed. -/
def planOne (validateLaunch : Backend γ → Job → γ → Except String String × γ) (plan : DryRunPlan)
    (job : Job) (action : Action) (placement : Option (Placement γ)) : Op γ DryRunPlan := do
  let plan := { plan with decisions := plan.decisions ++ [Decision.of job action placement] }
  match placement with
  | none => pure plan
  | some placement => do
      match ← external (validateLaunch placement.backend job) with
      | .ok check => pure { plan with checks := plan.checks ++ [(job.jobId, check)] }
      | .error problem => pure { plan with problems := plan.problems ++ [(job.jobId, problem)] }

/-- A dry run. Decides everything a tick would, launches nothing. -/
def plan (site : Site γ) (validateLaunch : Backend γ → Job → γ → Except String String × γ) (now : Time) :
    Op γ DryRunPlan :=
  decisions site now (planOne validateLaunch) ⟨now, [], [], []⟩

/-- A decision of a pass, and whether acting on it launched a machine. -/
structure Turn where
  decision : Decision
  launched : Bool
  deriving DecidableEq

/-- Act on one decision, and note it. -/
def traceOne (trace : List Turn × TickReport) (job : Job) (action : Action)
    (placement : Option (Placement γ)) : Op γ (List Turn × TickReport) := do
  let report ← dispatchOne trace.2 job action placement
  pure (trace.1 ++ [⟨Decision.of job action placement, report.dispatched ≠ trace.2.dispatched⟩], report)

/-- A pass that notes what it decides. -/
def tracedDispatch (site : Site γ) (now : Time) (report : TickReport) : Op γ (List Turn × TickReport) :=
  decisions site now traceOne ([], report)

/-- Two consumers, one of which does what the other does and keeps more, walk the queue alike. -/
theorem decideQueue_map {site : Site γ} {limit : Nat} {suspended : List (UserId × String)}
    {more : α → Job → Action → Option (Placement γ) → Op γ α}
    {less : β → Job → Action → Option (Placement γ) → Op γ β} (forget : α → β)
    (consumes : ∀ report job action placement,
      forget <$> more report job action placement = less (forget report) job action placement)
    (jobs : List Job) (pass : Pass) (report : α) :
    forget <$> decideQueue ⟨site, limit, suspended, more⟩ jobs pass report =
      decideQueue ⟨site, limit, suspended, less⟩ jobs pass (forget report) := by
  -- a decision handed on, and then the rest
  have onward : ∀ (report : α) (job : Job) (action : Action) (placement : Option (Placement γ))
      (rest : α → Op γ α) (fewer : β → Op γ β), (∀ after, forget <$> rest after = fewer (forget after)) →
      forget <$> (more report job action placement >>= rest) =
        less (forget report) job action placement >>= fewer := by
    intro report job action placement rest fewer agree
    rw [map_bind, ← consumes, bind_map_left]
    exact bind_congr fun after => agree after
  induction jobs generalizing pass report with
  | nil => rfl
  | cons job rest inductionHypothesis =>
      unfold decideQueue
      split
      · exact onward _ _ _ _ _ _ fun after => inductionHypothesis pass after
      · split
        · exact onward _ _ _ _ _ _ fun after => inductionHypothesis pass after
        · rw [map_bind]
          refine bind_congr fun count => ?_
          simp only
          split
          · exact onward _ _ _ _ _ _ fun after => inductionHypothesis _ after
          · split
            · refine onward _ _ _ _ _ _ fun after => ?_
              split
              · clear inductionHypothesis
                induction rest generalizing after with
                | nil => rfl
                | cons other rest inductionHypothesis =>
                    rw [List.foldlM_cons, List.foldlM_cons]
                    exact onward _ _ _ _ _ _ inductionHypothesis
              · exact inductionHypothesis _ after
            · rw [map_bind]
              refine bind_congr fun chosen => ?_
              cases chosen with
              | none => exact onward _ _ _ _ _ _ fun after => inductionHypothesis _ after
              | some placement => exact onward _ _ _ _ _ _ fun after => inductionHypothesis _ after

theorem decisions_map {site : Site γ} {now : Time}
    {more : α → Job → Action → Option (Placement γ) → Op γ α}
    {less : β → Job → Action → Option (Placement γ) → Op γ β} (forget : α → β)
    (consumes : ∀ report job action placement,
      forget <$> more report job action placement = less (forget report) job action placement)
    (report : α) :
    forget <$> decisions site now more report = decisions site now less (forget report) := by
  unfold decisions
  rw [map_bind]
  refine bind_congr fun config => ?_
  rw [map_bind]
  refine bind_congr fun usd => ?_
  rw [map_bind]
  refine bind_congr fun gpuHour => ?_
  rw [map_bind]
  refine bind_congr fun queue => ?_
  rw [map_bind]
  exact bind_congr fun suspended => decideQueue_map forget consumes queue _ report

/-- The pass that notes what it decides is the pass of a tick. -/
theorem dispatch_traced (site : Site γ) (now : Time) (report : TickReport) :
    Prod.snd <$> tracedDispatch site now report = dispatch site now report :=
  decisions_map Prod.snd (fun trace job action placement => by
    rw [traceOne, map_bind]
    exact bind_pure (dispatchOne trace.2 job action placement)) ([], report)

/-! ### What a pass decides -/

/-- Free slots, by backend and kind of capacity. -/
abbrev Supply := String → String → Int

/-- What a pass goes by, as it finds it before its first decision. -/
structure Rules where
  config : BrokerConfig
  suspended : List (UserId × String)
  running : UserId → Nat

/-- How many machines a member is holding. -/
def Rules.count (rules : Rules) (pass : Pass) (user : UserId) : Nat :=
  (pass.held.lookup user).getD (rules.running user)

/-- The first backend of a job's tiers that bills in its currency, supports its kind and has room. -/
def roomFor (site : Site γ) (config : BrokerConfig) (supply : Supply) (job : Job) : Option String :=
  match config.gpu job.gpuType with
  | .error _ => none
  | .ok gpu =>
      let backends := (tiersFor config job).flatMap fun tier =>
        site.backends.filter fun backend => backend.tierOf = tier
      (backends.find? fun backend => backend.currency = gpu.currency && backend.supports job.gpuType &&
        0 < supply backend.name job.gpuType).map Backend.name

/-- What is decided about a queue when each launch leaves `taken` of the free slots. -/
def fates (site : Site γ) (rules : Rules) (taken : String → Job → Supply → Supply) :
    List Job → Pass → Supply → List Decision
  | [], _, _ => []
  | job :: rest, pass, supply =>
      if (rules.suspended.lookup job.userId).isSome then
        ⟨job, .blockedUnauthorized, none⟩ :: fates site rules taken rest pass supply
      else if job.currency ∈ pass.blocked then
        ⟨job, .blockedPool, none⟩ :: fates site rules taken rest pass supply
      else
        let count := rules.count pass job.userId
        let pass := pass.hold job.userId count
        if rules.config.maxRunningJobsPerUser ≤ count then
          ⟨job, .blockedTenant, none⟩ :: fates site rules taken rest pass supply
        else if pass.remaining job.currency < money job.reserved then
          let pass := pass.block job.currency
          ⟨job, .blockedPool, none⟩ ::
            if pass.blocked.length = Currency.all.length then
              rest.map fun other => ⟨other, .blockedPool, none⟩
            else fates site rules taken rest pass supply
        else
          match roomFor site rules.config supply job with
          | none => ⟨job, .blockedCapacity, none⟩ :: fates site rules taken rest pass supply
          | some name =>
              ⟨job, .dispatch, some name⟩ ::
                fates site rules taken rest ((pass.hold job.userId (count + 1)).commit job)
                  (taken name job supply)

/-- A launch that takes nothing. -/
def idly (_ : String) (_ : Job) (supply : Supply) : Supply := supply

/-- The jobs of a queue that the rules let through, each sent to the first backend that had room for it
before the pass, all find a slot there when they take them one after another. -/
def ample (site : Site γ) (rules : Rules) (taken : String → Job → Supply → Supply) (supply : Supply) :
    List Job → Pass → Supply → Bool
  | [], _, _ => true
  | job :: rest, pass, left =>
      if (rules.suspended.lookup job.userId).isSome then ample site rules taken supply rest pass left
      else if job.currency ∈ pass.blocked then ample site rules taken supply rest pass left
      else
        let count := rules.count pass job.userId
        let pass := pass.hold job.userId count
        if rules.config.maxRunningJobsPerUser ≤ count then ample site rules taken supply rest pass left
        else if pass.remaining job.currency < money job.reserved then
          let pass := pass.block job.currency
          if pass.blocked.length = Currency.all.length then true
          else ample site rules taken supply rest pass left
        else
          match roomFor site rules.config supply job with
          | none => ample site rules taken supply rest pass left
          | some name =>
              0 < left name job.gpuType &&
                ample site rules taken supply rest ((pass.hold job.userId (count + 1)).commit job)
                  (taken name job left)

theorem roomFor_none {site : Site γ} {config : BrokerConfig} {supply left : Supply} {job : Job}
    (less : left ≤ supply) (full : roomFor site config supply job = none) :
    roomFor site config left job = none := by
  unfold roomFor at full ⊢
  cases known : config.gpu job.gpuType with
  | error error => rfl
  | ok gpu =>
      simp only [known, Option.map_eq_none_iff, List.find?_eq_none] at full ⊢
      intro backend member room
      refine full backend member ?_
      simp only [Bool.and_eq_true, decide_eq_true_eq] at room ⊢
      exact ⟨room.1, lt_of_lt_of_le room.2 (less _ _)⟩

/-- A backend that had room first has it first as long as it has any. -/
theorem roomFor_some {site : Site γ} {config : BrokerConfig} {supply left : Supply} {job : Job}
    {name : String} (less : left ≤ supply) (room : roomFor site config supply job = some name) :
    roomFor site config left job = some name ↔ 0 < left name job.gpuType := by
  unfold roomFor at room ⊢
  cases known : config.gpu job.gpuType with
  | error error => simp [known] at room
  | ok gpu =>
      simp only [known] at room ⊢
      constructor
      · intro again
        obtain ⟨backend, found, rfl⟩ := Option.map_eq_some_iff.mp again
        have has := List.find?_some found
        simp only [Bool.and_eq_true, decide_eq_true_eq] at has
        exact has.2
      · intro some
        obtain ⟨backend, found, rfl⟩ := Option.map_eq_some_iff.mp room
        obtain ⟨has, before, after, split, none⟩ := List.find?_eq_some_iff_append.mp found
        refine Option.map_eq_some_iff.mpr ⟨backend, List.find?_eq_some_iff_append.mpr
          ⟨?_, before, after, split, fun other member => ?_⟩, rfl⟩
        · simp only [Bool.and_eq_true, decide_eq_true_eq] at has ⊢
          exact ⟨has.1, some⟩
        · have full := none other member
          simp only [Bool.not_eq_true', Bool.and_eq_false_iff, decide_eq_false_iff_not, not_lt] at full ⊢
          exact full.imp_right fun nothing => (less _ _).trans nothing

/-- What is decided without taking slots is what is decided taking them exactly when there are slots
enough. -/
theorem fates_eq_iff {site : Site γ} {rules : Rules} {taken : String → Job → Supply → Supply}
    (lowers : ∀ name job supply, taken name job supply ≤ supply) {jobs : List Job} {pass : Pass}
    {supply left : Supply} (less : left ≤ supply) :
    fates site rules idly jobs pass supply = fates site rules taken jobs pass left ↔
      ample site rules taken supply jobs pass left = true := by
  induction jobs generalizing pass left with
  | nil => exact iff_of_true rfl rfl
  | cons job rest inductionHypothesis =>
      unfold fates ample
      split
      · rw [List.cons_inj_right]
        exact inductionHypothesis less
      · split
        · rw [List.cons_inj_right]
          exact inductionHypothesis less
        · simp only
          split
          · rw [List.cons_inj_right]
            exact inductionHypothesis less
          · split
            · rw [List.cons_inj_right]
              split
              · exact iff_of_true rfl rfl
              · exact inductionHypothesis less
            · cases room : roomFor site rules.config supply job with
              | none =>
                  rw [roomFor_none less room]
                  simp only
                  rw [List.cons_inj_right]
                  exact inductionHypothesis less
              | some name =>
                  have stays := roomFor_some less room
                  simp only
                  rw [Bool.and_eq_true, decide_eq_true_eq, ← stays]
                  by_cases again : roomFor site rules.config left job = some name
                  · rw [again]
                    simp only
                    rw [List.cons_inj_right]
                    simp only [true_and]
                    exact inductionHypothesis ((lowers name job left).trans less)
                  · refine iff_of_false (fun same => again ?_) fun both => again both.1
                    cases other : roomFor site rules.config left job with
                    | none =>
                        rw [other] at same
                        cases (List.cons.inj same).1
                    | some backend =>
                        rw [other] at same
                        cases (List.cons.inj same).1
                        rfl

/-! ### What a pass finds -/

/-- What is left of a currency's cap, as the next reading of the clock has it. -/
def World.headroom (world : World γ) (currency : Currency) : Decimal :=
  world.config.poolBudget currency -
    money (world.db.poolSpent currency (world.config.calendar.period (world.clock world.asked)) +
      world.db.activeHolds currency)

/-- What a pass keeps in memory before its first decision. -/
def World.opening (world : World γ) : Pass where
  headroom
    | .usd => world.headroom .usd
    | .gpuHour => world.ticked.headroom .gpuHour
  committed := fun _ => 0
  blocked := []
  held := []

def World.rules (world : World γ) : Rules := ⟨world.config, world.db.suspendedUsers, world.db.runningCount⟩

/-- The queue as a pass orders it. -/
def Site.queue (site : Site γ) (now : Time) (db : Db) : List Job :=
  db.queuedJobs.mergeSort fun one other =>
    site.score db now other < site.score db now one ∨
      (site.score db now one = site.score db now other ∧
        (one.submittedAt < other.submittedAt ∨
          (one.submittedAt = other.submittedAt ∧ one.jobId ≤ other.jobId)))

/-- A site whose backends answer how many slots they have free: asking changes nothing, whether for the
slots or whether a launch would succeed, and what a launch leaves is no more than there was. -/
structure Stock (site : Site γ) (validateLaunch : Backend γ → Job → γ → Except String String × γ) where
  free : γ → Supply
  taken : String → Job → Supply → Supply
  looks : ∀ backend ∈ site.backends, ∀ gpuType cloud,
    (backend.freeSlots gpuType cloud).1 = .ok (free cloud backend.name gpuType) ∧
      free (backend.freeSlots gpuType cloud).2 = free cloud
  launches : ∀ backend ∈ site.backends, ∀ job cloud allocation,
    (backend.launch job cloud).1 = .ok allocation →
      free (backend.launch job cloud).2 = taken backend.name job (free cloud)
  validates : ∀ backend ∈ site.backends, ∀ job cloud, free (validateLaunch backend job cloud).2 = free cloud
  lowers : ∀ name job supply, taken name job supply ≤ supply

/-- Run alone to its end, a program raises nothing but what is named and leaves what is asked. -/
abbrev Leaves (raises : BrokerError → Prop) (program : Op γ α) (post : α → World γ → Prop)
    (world : World γ) : Prop :=
  program.Safe (Contract.solo raises) post world

section Reading

variable {raises : BrokerError → Prop} {world : World γ}

theorem leaves_holdings {currency : Currency} {jobs : List Job} {holds : Cents} :
    Leaves raises (jobs.foldlM (addHolding currency) holds)
      (fun total next => next = world ∧ total = holds + holdsOf world.db currency jobs) world := by
  induction jobs generalizing holds with
  | nil => exact fun final same _ => ⟨same, (add_zero _).symm⟩
  | cons job jobs inductionHypothesis =>
      rw [List.foldlM_cons, holdsOf_cons]
      unfold addHolding
      split
      · refine Program.Safe.quietly (Program.Safe.weaken inductionHypothesis fun total next _ added => ?_)
        exact ⟨added.1, added.2.trans (add_assoc _ _ _)⟩
      · refine Program.Safe.weaken inductionHypothesis fun total next _ added => ⟨added.1, ?_⟩
        rw [added.2]
        exact congrArg (holds + ·) (zero_add _).symm

theorem leaves_poolHeadroom {currency : Currency} :
    Leaves raises (poolHeadroom currency)
      (fun headroom next => next = world.ticked ∧ headroom = world.headroom currency) world := by
  have committed : Leaves raises (poolCommitted currency)
      (fun committed next => next = world.ticked ∧
        committed = world.db.poolSpent currency
          (world.config.calendar.period (world.clock world.asked)) + world.db.activeHolds currency)
      world := by
    refine Program.Safe.quietly (Program.Safe.quietly (Program.Safe.quietly (Program.Safe.quietly ?_)))
    refine Program.Safe.bind leaves_holdings fun holds next _ added final same _ => ?_
    refine ⟨same.trans added.1, ?_⟩
    rw [added.2, zero_add]
    exact congrArg _ (holdsOf_activeJobs _ _)
  refine Program.Safe.quietly (Program.Safe.bind committed ?_)
  rintro committed next _ ⟨rfl, rfl⟩ final same _
  exact ⟨same, rfl⟩

end Reading

/-! ### The walk of the queue -/

/-- A job of a queue that is walked: it is in the table on its terms, and its kind is configured. -/
structure Listed (world : World γ) (job : Job) : Prop where
  row : ∃ row, world.db.jobs.find job.jobId = some row ∧ row.terms = job.terms
  typed : Typed world.config job.gpuType

/-- What acting on a decision about a member's job leaves: the jobs that are there, the configuration,
and what every other member is holding. -/
structure Beside (user : UserId) (world next : World γ) : Prop where
  persists : Persists world next
  config : next.config = world.config
  running : ∀ other, other ≠ user → next.db.runningCount other = world.db.runningCount other

theorem Beside.refl (user : UserId) (world : World γ) : Beside user world world :=
  ⟨Persists.refl world, rfl, fun _ _ => rfl⟩

theorem Beside.trans {user : UserId} {one two three : World γ} (first : Beside user one two)
    (second : Beside user two three) : Beside user one three :=
  ⟨first.persists.trans second.persists, second.config.trans first.config,
    fun other differs => (second.running other differs).trans (first.running other differs)⟩

theorem Beside.quiet {user : UserId} {world next : World γ} (quiet : Quiet world next) :
    Beside user world next :=
  ⟨quiet.persists, quiet.config, fun other _ => by rw [quiet.db]⟩

theorem Listed.beside {user : UserId} {world next : World γ} {job : Job} (listed : Listed world job)
    (beside : Beside user world next) : Listed next job := by
  obtain ⟨row, found, terms⟩ := listed.row
  obtain ⟨later, hasLater, same⟩ := beside.persists.jobs _ row found
  exact ⟨⟨later, hasLater, same.trans terms⟩, beside.config ▸ listed.typed⟩

section Walking

variable {raises : BrokerError → Prop} {site : Site γ} {world : World γ}
  {validateLaunch : Backend γ → Job → γ → Except String String × γ} {stock : Stock site validateLaunch}

/-- The world with a cloud that has as many slots free. -/
def Stock.Asked (stock : Stock site validateLaunch) (world next : World γ) : Prop :=
  ∃ cloud, next = world.called cloud ∧ stock.free cloud = stock.free world.cloud

theorem leaves_firstFree (stock : Stock site validateLaunch) {currency : Currency} {gpuType : String} {backends : List (Backend γ)}
    (mine : ∀ backend ∈ backends, backend ∈ site.backends) {skipped : List (String × String)} :
    Leaves raises (firstFree currency gpuType backends skipped)
      (fun chosen next => stock.Asked world next ∧ (∀ placement ∈ chosen, placement.backend ∈ site.backends) ∧
        chosen.map (fun placement => placement.backend.name) =
          (backends.find? fun backend => backend.currency = currency && backend.supports gpuType &&
            0 < stock.free world.cloud backend.name gpuType).map Backend.name) world := by
  induction backends generalizing skipped world with
  | nil => exact fun final same _ => ⟨⟨world.cloud, same, rfl⟩, nofun, rfl⟩
  | cons backend rest inductionHypothesis =>
      have others : ∀ other ∈ rest, other ∈ site.backends := fun other member =>
        mine other (List.mem_cons_of_mem _ member)
      unfold firstFree
      simp only
      split
      · next foreign =>
        rw [List.find?_cons_of_neg (by simp [foreign])]
        exact inductionHypothesis others
      · next own =>
        split
        · next lacks =>
          rw [List.find?_cons_of_neg (by simpa using fun _ has => by simp [has] at lacks)]
          exact inductionHypothesis others
        · next has =>
          obtain ⟨answer, still⟩ := stock.looks backend (mine backend List.mem_cons_self) gpuType world.cloud
          unfold externally
          rw [bind_assoc]
          refine Program.Safe.quietly ?_
          simp only
          rw [answer]
          simp only [pure_bind]
          have asked : stock.Asked world (world.called (backend.freeSlots gpuType world.cloud).2) :=
            ⟨_, rfl, still⟩
          split
          · next full =>
            rw [List.find?_cons_of_neg (by simpa using fun _ _ => full)]
            refine Program.Safe.weaken (inductionHypothesis others) fun chosen next _ found => ?_
            obtain ⟨⟨cloud, rfl, same⟩, member, names⟩ := found
            refine ⟨⟨cloud, rfl, same.trans still⟩, member, names.trans ?_⟩
            show Option.map _ (List.find? (fun other => _ && _ && decide (0 < stock.free
              (backend.freeSlots gpuType world.cloud).2 _ _)) rest) = _
            rw [still]
          · next free =>
            have room : 0 < stock.free world.cloud backend.name gpuType := not_le.mp free
            rw [List.find?_cons_of_pos (by simpa [room] using ⟨not_not.mp own, by simpa using has⟩)]
            refine fun final same _ => ⟨?_, ?_, rfl⟩
            · rw [same]
              exact asked
            · intro placement some
              cases some
              exact mine backend List.mem_cons_self

theorem leaves_choose (stock : Stock site validateLaunch) {job : Job} (typed : Typed world.config job.gpuType) :
    Leaves raises (choose site job)
      (fun chosen next => stock.Asked world next ∧ (∀ placement ∈ chosen, placement.backend ∈ site.backends) ∧
        chosen.map (fun placement => placement.backend.name) =
          roomFor site world.config (stock.free world.cloud) job) world := by
  obtain ⟨gpu, known⟩ := typed
  refine Program.Safe.quietly ?_
  rw [known]
  unfold roomFor
  rw [known]
  refine leaves_firstFree stock fun backend member => ?_
  obtain ⟨tier, _, filtered⟩ := List.mem_flatMap.mp member
  exact (List.mem_filter.mp filtered).1

/-- The free slots a decision leaves. -/
def leftBy (taken : String → Job → Supply → Supply) (job : Job) : Option (Placement γ) → Supply → Supply
  | none, supply => supply
  | some placement, supply => taken placement.backend.name job supply

/-- A consumer that notes every decision. What it leaves of the free slots is known where it did what
it was asked to. -/
structure Heeds (stock : Stock site validateLaunch) (raises : BrokerError → Prop)
    (taken : String → Job → Supply → Supply) (decided : α → List Decision) (did : α → Prop)
    (consume : α → Job → Action → Option (Placement γ) → Op γ α) : Prop where
  heeds : ∀ report job action placement world, Listed world job →
    (action = .dispatch ↔ placement.isSome = true) →
    (∀ chosen ∈ placement, chosen.backend ∈ site.backends) →
    Leaves raises (consume report job action placement)
      (fun after next => decided after = decided report ++ [Decision.of job action placement] ∧
        Beside job.userId world next ∧ (placement = none → next.db = world.db) ∧
        (did after → did report ∧
          stock.free next.cloud = leftBy taken job placement (stock.free world.cloud))) world

variable {taken : String → Job → Supply → Supply} {decided : α → List Decision} {did : α → Prop}
  {consume : α → Job → Action → Option (Placement γ) → Op γ α}

theorem leaves_heldBy {rules : Rules} {pass : Pass} {user : UserId}
    (running : pass.held.lookup user = none → world.db.runningCount user = rules.running user) :
    Leaves raises (heldBy pass user) (fun count next => next = world ∧ count = rules.count pass user) world := by
  unfold heldBy Rules.count
  cases held : pass.held.lookup user with
  | some count => exact fun final same _ => ⟨same, rfl⟩
  | none =>
      rintro current rfl _ _
      exact ⟨trivial, trivial, fun final same _ => ⟨same, running held⟩⟩

/-- The rest of a queue, once every currency is blocked. -/
theorem leaves_blocked (heeds : Heeds stock raises taken decided did consume) {jobs : List Job} {report : α}
    (listed : ∀ job ∈ jobs, Listed world job) :
    Leaves raises (jobs.foldlM (fun report other => consume report other .blockedPool none) report)
      (fun after _ => did after → did report ∧ decided after =
        decided report ++ jobs.map fun other => ⟨other, .blockedPool, none⟩) world := by
  induction jobs generalizing report world with
  | nil => exact fun final _ _ did => ⟨did, (List.append_nil _).symm⟩
  | cons job rest inductionHypothesis =>
      rw [List.foldlM_cons]
      refine Program.Safe.bind (heeds.heeds report job .blockedPool none world
        (listed job List.mem_cons_self) (by simp) nofun) fun middle next _ noted => ?_
      obtain ⟨names, beside, _, counted⟩ := noted
      have later : ∀ other ∈ rest, Listed next other := fun other member =>
        (listed other (List.mem_cons_of_mem _ member)).beside beside
      refine Program.Safe.weaken (inductionHypothesis later) fun after last _ ahead done => ?_
      obtain ⟨doneHere, all⟩ := ahead done
      refine ⟨(counted doneHere).1, ?_⟩
      rw [all, names, List.append_assoc]
      rfl

/-- What is decided along a queue is what its rules and the free slots say. -/
theorem leaves_decideQueue (heeds : Heeds stock raises taken decided did consume) {rules : Rules}
    {jobs : List Job} {pass : Pass} {report : α} (config : world.config = rules.config)
    (listed : ∀ job ∈ jobs, Listed world job)
    (running : ∀ user, pass.held.lookup user = none → world.db.runningCount user = rules.running user) :
    Leaves raises
      (decideQueue ⟨site, rules.config.maxRunningJobsPerUser, rules.suspended, consume⟩ jobs pass report)
      (fun after _ => did after → did report ∧
        decided after = decided report ++ fates site rules taken jobs pass (stock.free world.cloud)) world := by
  induction jobs generalizing pass report world with
  | nil => exact fun final _ _ did => ⟨did, (List.append_nil _).symm⟩
  | cons job rest inductionHypothesis =>
      have mine := listed job List.mem_cons_self
      -- a decision handed on, and then the rest of the queue under the pass it leaves
      have onward : ∀ {action : Action} {placement : Option (Placement γ)} {pass : Pass} {current : World γ},
          stock.Asked world current → (action = .dispatch ↔ placement.isSome = true) →
          (∀ chosen ∈ placement, chosen.backend ∈ site.backends) →
          (∀ user, pass.held.lookup user = none → (placement.isSome = true → user ≠ job.userId) ∧
            world.db.runningCount user = rules.running user) →
          Leaves raises (consume report job action placement >>= fun report => decideQueue
              ⟨site, rules.config.maxRunningJobsPerUser, rules.suspended, consume⟩ rest pass report)
            (fun after _ => did after → did report ∧ decided after = decided report ++
              Decision.of job action placement :: fates site rules taken rest pass
                (leftBy taken job placement (stock.free world.cloud))) current := by
        rintro action placement pass current ⟨cloud, rfl, same⟩ names sited counts
        have calledQuiet : Beside job.userId world (world.called cloud) := .quiet (world.called_quiet cloud)
        refine Program.Safe.bind (heeds.heeds report job action placement _ (mine.beside calledQuiet)
          names sited) fun middle next _ noted => ?_
        obtain ⟨noted, beside, unplaced, counted⟩ := noted
        have whole := calledQuiet.trans beside
        have later : ∀ other ∈ rest, Listed next other := fun other member =>
          (listed other (List.mem_cons_of_mem _ member)).beside whole
        refine Program.Safe.weaken (inductionHypothesis (whole.config.trans config) later
          fun user unheld => ?_) fun after last _ ahead done => ?_
        · obtain ⟨apart, count⟩ := counts user unheld
          refine Eq.trans ?_ count
          cases placement with
          | none => rw [unplaced rfl]; rfl
          | some placement => exact whole.running user (apart rfl)
        · obtain ⟨doneHere, all⟩ := ahead done
          obtain ⟨doneBefore, supply⟩ := counted doneHere
          refine ⟨doneBefore, ?_⟩
          have left : stock.free next.cloud = leftBy taken job placement (stock.free world.cloud) := by
            rw [← same]
            exact supply
          rw [all, noted, List.append_assoc, List.singleton_append, left]
      have here : stock.Asked world world := ⟨world.cloud, rfl, rfl⟩
      have unplaced : ∀ {user}, (none : Option (Placement γ)).isSome = true → user ≠ job.userId :=
        fun placed => by cases placed
      have none_sited : ∀ chosen ∈ (none : Option (Placement γ)), chosen.backend ∈ site.backends :=
        fun _ member => by cases member
      unfold decideQueue fates
      split
      · exact onward here (by simp) none_sited fun user unheld => ⟨unplaced, running user unheld⟩
      · split
        · exact onward here (by simp) none_sited fun user unheld => ⟨unplaced, running user unheld⟩
        · refine Program.Safe.bind (leaves_heldBy (running job.userId)) fun count current _ counted => ?_
          obtain ⟨rfl, rfl⟩ := counted
          have others : ∀ (count : Nat) user, (pass.hold job.userId count).held.lookup user = none →
              user ≠ job.userId ∧ current.db.runningCount user = rules.running user := by
            intro count user unheld
            have lookup : List.lookup user ((job.userId, count) :: pass.held) = none := unheld
            rw [List.lookup_cons] at lookup
            split at lookup
            · cases lookup
            · next differs => exact ⟨by simpa using differs, running user lookup⟩
          simp only
          split
          · exact onward here (by simp) none_sited fun user unheld => ⟨unplaced, (others _ user unheld).2⟩
          · split
            · split
              · refine Program.Safe.bind (heeds.heeds report job .blockedPool none current mine
                  (by simp) none_sited) fun middle next _ noted => ?_
                obtain ⟨names, beside, _, counted⟩ := noted
                refine Program.Safe.weaken (leaves_blocked heeds fun other member =>
                  (listed other (List.mem_cons_of_mem _ member)).beside beside)
                  fun after last _ ahead done => ?_
                obtain ⟨doneHere, all⟩ := ahead done
                refine ⟨(counted doneHere).1, ?_⟩
                rw [all, names, List.append_assoc]
                rfl
              · exact onward here (by simp) none_sited fun user unheld => ⟨unplaced, (others _ user unheld).2⟩
            · refine Program.Safe.bind (leaves_choose stock mine.typed) fun chosen next _ found => ?_
              obtain ⟨asked, sited, name⟩ := found
              rw [config] at name
              rw [← name]
              cases chosen with
              | none =>
                  exact onward asked (by simp) none_sited fun user unheld => ⟨unplaced, (others _ user unheld).2⟩
              | some placement =>
                  refine onward asked (by simp) sited fun user unheld => ?_
                  have again : List.lookup user ((job.userId, rules.count pass job.userId + 1) ::
                      (job.userId, rules.count pass job.userId) :: pass.held) = none := unheld
                  rw [List.lookup_cons] at again
                  split at again
                  · cases again
                  · exact ⟨fun _ => (others _ user again).1, (others _ user again).2⟩

end Walking

/-! ### Acting on a decision -/

section Acting

variable {world next : World γ}

theorem leaves_executing {write : Write} {value : α} {post : α → World γ → Prop}
    (committed : ∀ next, write.apply world = .ok next → post value next) :
    Leaves (fun _ => True) (executing write value) post world := by
  refine Program.Safe.commit ?_ fun _ _ _ _ _ _ => ⟨trivial, trivial⟩
  rintro current next rfl _ _ applied
  exact ⟨trivial, trivial, fun final same _ => same ▸ committed next applied⟩

/-- A touch leaves what everybody is holding. -/
theorem beside_touch {id : JobId} {columns : Touch} {now : Time} (user : UserId)
    (applied : (Write.touch id columns now).apply world = .ok next) : Beside user world next := by
  refine ⟨Write.persists applied, ?_, fun other _ => ?_⟩
  · obtain ⟨db, _, rfl⟩ := Write.apply_eq applied
    rfl
  · obtain ⟨db, written, rfl⟩ := Write.apply_eq applied
    rw [Db.touchJob_eq written]
    refine Table.filter_modify_length _ (columns.onRow_id now) _ fun row _ => ?_
    cases columns <;> rfl

/-- A move leaves what everybody but the job's owner is holding. -/
theorem beside_move {current : Job} {target : JobState} {change : Change} {now : Time}
    {outstanding : Option Cents} (listed : Listed world current)
    (applied : (Write.move current target change now outstanding).apply world = .ok next) :
    Beside current.userId world next := by
  refine ⟨Write.persists applied, ?_, fun other differs => ?_⟩
  · obtain ⟨db, _, rfl⟩ := Write.apply_eq applied
    rfl
  · obtain ⟨db, written, rfl⟩ := Write.apply_eq applied
    obtain ⟨_, _, _, rfl⟩ := Db.moveJob_eq written
    refine Table.filter_modify_length _ (Job.writtenOver_id _) _ fun row found => ?_
    obtain ⟨mine, hasMine, terms⟩ := listed.row
    cases found.symm.trans hasMine
    have owner : row.userId = current.userId := congrArg Terms.userId terms
    have apart : row.userId ≠ other := fun same => differs (same.symm.trans owner)
    exact (decide_eq_false (not_and_of_not_left _ apart)).trans
      (decide_eq_false (not_and_of_not_left _ apart)).symm

theorem leaves_appendLog (user : UserId) {id : JobId} {line : String} :
    Leaves (fun _ => True) (appendLog id line)
      (fun _ next => Beside user world next ∧ next.cloud = world.cloud) world := by
  refine Program.Safe.quietly (Program.Safe.quietly ?_)
  simp only
  split
  · rintro final rfl _
    exact ⟨Beside.refl user final, rfl⟩
  · refine Program.Safe.quietly (leaves_executing fun next applied => ?_)
    have cloud : next.cloud = world.ticked.cloud := apply_cloud applied
    exact ⟨(Beside.quiet world.ticked_quiet).trans (beside_touch user applied), cloud⟩

theorem leaves_recordAttempt {job : Job} :
    Leaves (fun _ => True) (recordAttempt job)
      (fun after next => Beside job.userId world next ∧ next.cloud = world.cloud ∧
        after.jobId = job.jobId ∧ after.terms = job.terms) world := by
  refine Program.Safe.quietly (leaves_executing fun next applied => ?_)
  have cloud : next.cloud = world.ticked.cloud := apply_cloud applied
  exact ⟨(Beside.quiet world.ticked_quiet).trans (beside_touch _ applied), cloud, rfl, rfl⟩

theorem leaves_transition {current : Job} {target : JobState} {change : Change}
    (listed : Listed world current) :
    Leaves (fun _ => True) (transition current target change)
      (fun _ next => Beside current.userId world next ∧ next.cloud = world.cloud) world := by
  have ticked : Beside current.userId world world.ticked := .quiet world.ticked_quiet
  have moved : ∀ next outstanding,
      (Write.move current target change (world.clock world.asked) outstanding).apply world.ticked =
        .ok next → Beside current.userId world next ∧ next.cloud = world.cloud := by
    intro next outstanding applied
    have cloud : next.cloud = world.ticked.cloud := apply_cloud applied
    exact ⟨ticked.trans (beside_move (listed.beside ticked) applied), cloud⟩
  unfold transition
  split
  · refine Program.Safe.quietly ?_
    split
    · exact Program.Safe.quietly (leaves_executing fun next applied => moved next _ applied)
    · exact leaves_executing fun next applied => moved next none applied
  · exact Program.Safe.fail trivial

/-- A launch that is noted as one is one the backend has answered. -/
theorem leaves_launch {report : TickReport} {job : Job} {placement : Placement γ} (listed : Listed world job) :
    Leaves (fun _ => True) (launch report job placement)
      (fun after next => Beside job.userId world next ∧ (after.dispatched ≠ report.dispatched →
        (∃ allocation, (placement.backend.launch job world.cloud).1 = .ok allocation) ∧
          next.cloud = (placement.backend.launch job world.cloud).2)) world := by
  refine Program.Safe.quietly ?_
  simp only
  have called : Beside job.userId world (world.called (placement.backend.launch job world.cloud).2) :=
    .quiet (world.called_quiet _)
  cases answer : (placement.backend.launch job world.cloud).1 with
  | error detail =>
      refine Program.Safe.bind (leaves_appendLog job.userId) fun _ after _ logged => ?_
      rintro final rfl _
      exact ⟨called.trans logged.1, fun launched => absurd rfl launched⟩
  | ok allocation =>
      refine Program.Safe.bind leaves_recordAttempt fun attempt one _ counted => ?_
      obtain ⟨first, cloudFirst, id, terms⟩ := counted
      have user : attempt.userId = job.userId := congrArg Terms.userId terms
      have attempted : Listed one attempt := by
        obtain ⟨⟨row, found, same⟩, typed⟩ := (listed.beside called).beside first
        have kind : attempt.gpuType = job.gpuType := congrArg Terms.gpuType terms
        exact ⟨⟨row, id ▸ found, same.trans terms.symm⟩, kind ▸ typed⟩
      refine Program.Safe.bind (leaves_transition attempted) fun _ two _ second => ?_
      rw [user] at second
      refine Program.Safe.bind (leaves_appendLog job.userId) fun _ three _ third => ?_
      refine Program.Safe.bind (leaves_appendLog job.userId) fun _ four _ fourth => ?_
      rintro final rfl _
      refine ⟨called.trans (first.trans (second.1.trans (third.1.trans fourth.1))),
        fun _ => ⟨⟨allocation, rfl⟩, ?_⟩⟩
      rw [fourth.2, third.2, second.2, cloudFirst]

/-- What acting on a decision leaves: a job that is blocked is only noted. -/
theorem leaves_dispatchOne {report : TickReport} {job : Job} {action : Action}
    {placement : Option (Placement γ)} (listed : Listed world job)
    (names : action = .dispatch ↔ placement.isSome = true) :
    Leaves (fun _ => True) (dispatchOne report job action placement)
      (fun after next => Beside job.userId world next ∧ (placement = none → next = world) ∧
        (∀ chosen ∈ placement, after.dispatched ≠ report.dispatched →
          (∃ allocation, (chosen.backend.launch job world.cloud).1 = .ok allocation) ∧
            next.cloud = (chosen.backend.launch job world.cloud).2)) world := by
  refine Program.Safe.quietly ?_
  obtain ⟨gpu, known⟩ := listed.typed
  rw [known]
  cases placement with
  | none =>
      cases action with
      | dispatch => simp at names
      | blockedPool | blockedCapacity | blockedTenant | blockedUnauthorized =>
          rintro final rfl _
          exact ⟨Beside.refl _ final, fun _ => rfl, nofun⟩
  | some placement =>
      cases names.mpr rfl
      refine Program.Safe.weaken (leaves_launch listed) fun after next _ done => ?_
      refine ⟨done.1, nofun, fun chosen mine => ?_⟩
      cases mine
      exact done.2

variable {site : Site γ} {validateLaunch : Backend γ → Job → γ → Except String String × γ}

theorem heeds_planOne (stock : Stock site validateLaunch) :
    Heeds stock (fun _ => False) idly DryRunPlan.decisions (fun _ => True) (planOne validateLaunch) := by
  refine ⟨fun report job action placement world _ _ sited => ?_⟩
  cases placement with
  | none =>
      rintro final rfl _
      exact ⟨rfl, Beside.refl _ final, fun _ => rfl, fun _ => ⟨trivial, rfl⟩⟩
  | some placement =>
      refine Program.Safe.quietly ?_
      have called : Beside job.userId world (world.called (validateLaunch placement.backend job world.cloud).2) :=
        .quiet (world.called_quiet _)
      have still := stock.validates _ (sited placement rfl) job world.cloud
      simp only
      split
      · rintro final rfl _
        exact ⟨rfl, called, nofun, fun _ => ⟨trivial, still⟩⟩
      · rintro final rfl _
        exact ⟨rfl, called, nofun, fun _ => ⟨trivial, still⟩⟩

/-- Every machine the pass set out to launch so far it has launched. -/
def AllLaunched (trace : List Turn × TickReport) : Prop :=
  ∀ turn ∈ trace.1, turn.decision.action = .dispatch → turn.launched = true

theorem heeds_traceOne (stock : Stock site validateLaunch) :
    Heeds stock (fun _ => True) stock.taken (fun trace : List Turn × TickReport => trace.1.map Turn.decision)
      AllLaunched traceOne := by
  refine ⟨fun trace job action placement world listed names sited => ?_⟩
  refine Program.Safe.bind (leaves_dispatchOne listed names) fun report next _ done => ?_
  rintro final rfl _
  refine ⟨by simp, done.1, fun unplaced => by rw [done.2.1 unplaced], fun all => ⟨fun turn member =>
    all turn (List.mem_append_left _ member), ?_⟩⟩
  cases placement with
  | none => rw [done.2.1 rfl]; rfl
  | some placement =>
      have launched := all _ (List.mem_append_right _ (List.mem_singleton.mpr rfl)) (names.mpr rfl)
      obtain ⟨⟨allocation, answer⟩, cloud⟩ := done.2.2 placement rfl (of_decide_eq_true launched)
      rw [cloud]
      exact stock.launches _ (sited placement rfl) job world.cloud allocation answer

end Acting

/-! ### The dry run and the pass -/

section Comparing

variable {world : World γ} {raises : BrokerError → Prop} {site : Site γ}
  {validateLaunch : Backend γ → Job → γ → Except String String × γ} {stock : Stock site validateLaunch}
  {taken : String → Job → Supply → Supply} {decided : α → List Decision} {did : α → Prop}
  {consume : α → Job → Action → Option (Placement γ) → Op γ α}

theorem Site.queue_listed {now : Time} (booked : Booked world) :
    ∀ job ∈ site.queue now world.db, Listed world job := by
  intro job member
  have queued : job ∈ world.db.queuedJobs := (List.mergeSort_perm _ _).mem_iff.mp member
  have found : world.db.jobs.find job.jobId = some job := (Db.find_of_listJobs queued).1
  exact ⟨⟨job, found, rfl⟩, booked.typed _ job found⟩

theorem leaves_orderedQueue {now : Time} :
    Leaves raises (orderedQueue site now)
      (fun queue next => next = world ∧ queue = site.queue now world.db) world := by
  refine Program.Safe.quietly (Program.Safe.quietly ?_)
  exact fun final same _ => ⟨same, rfl⟩

theorem leaves_decisions (heeds : Heeds stock raises taken decided did consume) (booked : Booked world)
    {now : Time} {report : α} :
    Leaves raises (decisions site now consume report)
      (fun after _ => did after → did report ∧ decided after = decided report ++
        fates site world.rules taken (site.queue now world.db) world.opening (stock.free world.cloud))
      world := by
  refine Program.Safe.quietly ?_
  refine Program.Safe.bind leaves_poolHeadroom fun usd one _ first => ?_
  obtain ⟨rfl, rfl⟩ := first
  refine Program.Safe.bind leaves_poolHeadroom fun gpuHour two _ second => ?_
  obtain ⟨rfl, rfl⟩ := second
  refine Program.Safe.bind leaves_orderedQueue fun queue three _ third => ?_
  obtain ⟨rfl, rfl⟩ := third
  refine Program.Safe.quietly ?_
  have asked : Beside "" world world.ticked.ticked :=
    .quiet (world.ticked_quiet.trans world.ticked.ticked_quiet)
  have listed : ∀ job ∈ site.queue now world.db, Listed world.ticked.ticked job := fun job member =>
    (Site.queue_listed booked job member).beside asked
  have walked : Leaves raises
      (decideQueue ⟨site, world.rules.config.maxRunningJobsPerUser, world.rules.suspended, consume⟩
        (site.queue now world.db) world.opening report)
      (fun after _ => did after → did report ∧ decided after = decided report ++
        fates site world.rules taken (site.queue now world.db) world.opening (stock.free world.cloud))
      world.ticked.ticked := leaves_decideQueue heeds rfl listed fun _ _ => rfl
  exact walked

end Comparing

/-- In every state a run reaches, a dry run answers, and where every machine the pass sets out to launch
is launched, the two decide alike exactly when the jobs that are let through find slots enough. -/
theorem plan_is_dispatch (desk : Desk γ)
    (validateLaunch : Backend γ → Job → γ → Except String String × γ)
    (stock : Stock desk.site validateLaunch) (config : BrokerConfig) (cloud : γ) (clock : Nat → Time)
    (entries : List (Operation × Nat)) (now : Time) (report : TickReport) :
    let world := desk.after entries (World.new config cloud clock)
    let supply := stock.free world.cloud
    ∃ long plan, ((Broker.plan desk.site validateLaunch now).run long world).1.answer = some plan ∧
      ∀ length trace, ((tracedDispatch desk.site now report).run length world).1.answer = some trace →
        AllLaunched trace →
          (plan.decisions = trace.1.map Turn.decision ↔
            ample desk.site world.rules stock.taken supply (desk.site.queue now world.db) world.opening
              supply = true) := by
  intro world supply
  have booked : Booked world := desk.booked entries (Booked.new config cloud clock)
  have dry : Leaves (fun _ => False) (Broker.plan desk.site validateLaunch now) _ world :=
    leaves_decisions (heeds_planOne stock) booked
  have real : Leaves (fun _ => True) (tracedDispatch desk.site now report) _ world :=
    leaves_decisions (heeds_traceOne stock) booked
  obtain ⟨long, plan, answered, planned⟩ := dry.answers trivial (fun _ _ => trivial) fun _ => id
  refine ⟨long, plan, answered, fun length trace ended all => ?_⟩
  have done := real.result trivial (Program.allowed_always (fun _ _ => trivial) _ _ _) ended all
  rw [(planned trivial).2, done.2]
  exact fates_eq_iff stock.lowers le_rfl

/-- A cloud with a number of slots, each launch taking one. -/
def Rack.limited (slots : Int) : Desk Rack where
  site :=
    { backends :=
        [{ Rack.backend (fun _ => .running) fun _ => [] with
            freeSlots := fun _ rack => (.ok (slots - rack.launches), rack) }]
      latest := none
      score := fun _ _ _ => 0
      evidence := fun _ => "" }
  text _ := "refused"

/-- A check that always passes. -/
def Rack.validateLaunch (_ : Backend Rack) (_ : Job) (rack : Rack) : Except String String × Rack :=
  (.ok "would launch", rack)

def Rack.stock (slots : Int) : Stock (Rack.limited slots).site Rack.validateLaunch where
  free rack _ _ := slots - rack.launches
  taken _ _ supply name gpuType := supply name gpuType - 1
  looks backend member gpuType rack := by
    rw [List.mem_singleton.mp member]
    exact ⟨rfl, rfl⟩
  launches backend member job rack allocation _ := by
    rw [List.mem_singleton.mp member]
    funext name gpuType
    show slots - (rack.launches + 1 : Nat) = slots - rack.launches - 1
    omega
  validates _ _ _ _ := rfl
  lowers _ _ supply name gpuType := by
    show supply name gpuType - 1 ≤ supply name gpuType
    omega

/-- Ann and Bob join, and each asks for four hours. -/
def Operation.pair : List (Operation × Nat) :=
  [(.upsertUser "ann" none none none none, 40), (.upsertUser "bob" none none none none, 40),
    (.submit ⟨"ann-job", "ann", "train", "t4", 4, none, none, "real"⟩, 40),
    (.submit ⟨"bob-job", "bob", "train", "t4", 4, none, none, "real"⟩, 40)]

example : Operation.pair.length = 4 := by decide +kernel

/-- A decision as it is shown. -/
def Decision.shown (decision : Decision) : JobId × Action × Option String :=
  (decision.job.jobId, decision.action, decision.backend)

instance (trace : List Turn × TickReport) : Decidable (AllLaunched trace) :=
  inferInstanceAs (Decidable (∀ turn ∈ trace.1, turn.decision.action = .dispatch → turn.launched = true))

/-- A pass comes to the walk of its queue. -/
theorem decisions_run (site : Site γ) (now : Time)
    (consume : α → Job → Action → Option (Placement γ) → Op γ α) (report : α) (world : World γ) :
    ∃ length, ∀ more, (decisions site now consume report).run (length + more) world =
      (decideQueue ⟨site, world.config.maxRunningJobsPerUser, world.db.suspendedUsers, consume⟩
        (site.queue now world.db) world.opening report).run more world.ticked.ticked := by
  let walk := fun (usd gpuHour : Decimal) queue suspended =>
    let headroom : Currency → Decimal := fun currency =>
      match currency with
      | .usd => usd
      | .gpuHour => gpuHour
    decideQueue ⟨site, world.config.maxRunningJobsPerUser, suspended, consume⟩ queue
      ⟨headroom, fun _ => 0, [], []⟩ report
  have usd : Leaves (fun _ => False) (poolHeadroom .usd) _ world := leaves_poolHeadroom
  have gpuHour : Leaves (fun _ => False) (poolHeadroom .gpuHour) _ world.ticked := leaves_poolHeadroom
  have ordered : Leaves (fun _ => False) (orderedQueue site now) _ world.ticked.ticked :=
    leaves_orderedQueue
  obtain ⟨one, _, _, ⟨rfl, rfl⟩, first⟩ := usd.run_bind trivial (fun _ _ => trivial) (fun _ => id)
    fun usd => poolHeadroom .gpuHour >>= fun gpuHour => orderedQueue site now >>= fun queue =>
      query Db.suspendedUsers >>= walk usd gpuHour queue
  obtain ⟨two, _, _, ⟨rfl, rfl⟩, second⟩ := gpuHour.run_bind trivial (fun _ _ => trivial) (fun _ => id)
    fun gpuHour => orderedQueue site now >>= fun queue =>
      query Db.suspendedUsers >>= walk (world.headroom .usd) gpuHour queue
  obtain ⟨three, _, _, ⟨rfl, rfl⟩, third⟩ := ordered.run_bind trivial (fun _ _ => trivial) (fun _ => id)
    fun queue => query Db.suspendedUsers >>=
      walk (world.headroom .usd) (world.ticked.headroom .gpuHour) queue
  refine ⟨one + (two + (three + 1)) + 1, fun more => ?_⟩
  have lengths : one + (two + (three + 1)) + 1 + more = one + (two + (three + (more + 1))) + 1 := by omega
  rw [lengths]
  exact (first _).trans ((second _).trans (third _))

/-- A queue whose jobs stand in the table in the order they were submitted, and are scored alike, is
walked as it stands. -/
theorem Site.queue_sorted {site : Site γ} {now : Time} {db : Db} {jobs : List Job}
    (queued : db.jobs.rows.filter (fun job => job.state == .queued) = jobs)
    (submitted : jobs.Pairwise fun one other => one.submittedAt < other.submittedAt)
    (tied : ∀ one other, site.score db now one = site.score db now other) : site.queue now db = jobs := by
  have sorted : db.queuedJobs = jobs := by
    refine (List.mergeSort_of_pairwise ?_).trans queued
    rw [queued]
    exact submitted.imp fun before => decide_eq_true (Or.inl before)
  unfold Site.queue
  rw [sorted]
  refine List.mergeSort_of_pairwise (submitted.imp fun before => ?_)
  exact decide_eq_true (Or.inr ⟨tied _ _, Or.inl before⟩)

/-- The club when both have asked. -/
def Rack.asked (slots : Int) : World Rack := (Rack.limited slots).after Operation.pair (World.club .club)

theorem Rack.asked_queue (slots : Int) (which : slots = 1 ∨ slots = 2) :
    (Rack.limited slots).site.queue 0 (Rack.asked slots).db = (Rack.asked slots).db.jobs.rows := by
  rcases which with rfl | rfl
  · exact Site.queue_sorted (by decide +kernel) (by decide +kernel) fun _ _ => rfl
  · exact Site.queue_sorted (by decide +kernel) (by decide +kernel) fun _ _ => rfl

/-- A pass over the club's queue, whatever takes its decisions. -/
theorem Rack.asked_run (slots : Int) (which : slots = 1 ∨ slots = 2)
    (consume : α → Job → Action → Option (Placement Rack) → Op Rack α) (report : α) :
    let world := Rack.asked slots
    ∃ length, (decisions (Rack.limited slots).site 0 consume report).run length world =
      (decideQueue ⟨(Rack.limited slots).site, world.config.maxRunningJobsPerUser,
        world.db.suspendedUsers, consume⟩ world.db.jobs.rows world.opening report).run 40
          world.ticked.ticked := by
  intro world
  obtain ⟨length, runs⟩ := decisions_run (Rack.limited slots).site 0 consume report world
  refine ⟨length + 40, ?_⟩
  rw [runs 40, Rack.asked_queue slots which]

/-- With a slot for each job, the dry run says what the pass does. -/
theorem plan_is_dispatch_roomy :
    ∃ long plan, ((Broker.plan (Rack.limited 2).site Rack.validateLaunch 0).run long
        (Rack.asked 2)).1.answer = some plan ∧
      plan.decisions.map Decision.shown =
        [("ann-job", .dispatch, some "cloud"), ("bob-job", .dispatch, some "cloud")] := by
  obtain ⟨length, runs⟩ := Rack.asked_run 2 (Or.inr rfl) traceOne ([], {})
  have real : ∃ trace ∈ ((tracedDispatch (Rack.limited 2).site 0 {}).run length (Rack.asked 2)).1.answer,
      AllLaunched trace ∧ (trace.1.map Turn.decision).map Decision.shown =
        [("ann-job", .dispatch, some "cloud"), ("bob-job", .dispatch, some "cloud")] := by
    rw [tracedDispatch, runs]
    decide +kernel
  obtain ⟨trace, ended, all, shown⟩ := real
  obtain ⟨long, plan, answered, agrees⟩ := plan_is_dispatch (Rack.limited 2) Rack.validateLaunch
    (Rack.stock 2) .club ⟨0, 0⟩ (fun reading => reading * twelveMinutes) Operation.pair 0 {}
  have queue := Rack.asked_queue 2 (Or.inr rfl)
  unfold Rack.asked World.club at queue
  have same : plan.decisions = trace.1.map Turn.decision := (agrees length trace ended all).mpr <| by
    rw [queue]
    decide +kernel
  refine ⟨long, plan, answered, ?_⟩
  rw [same]
  exact shown

/-- With one slot for two jobs, the dry run dispatches both; the pass launches one and leaves the other. -/
theorem plan_overcommits :
    (∃ length, ∃ plan ∈ ((Broker.plan (Rack.limited 1).site Rack.validateLaunch 0).run length
        (Rack.asked 1)).1.answer, plan.decisions.map Decision.shown =
          [("ann-job", .dispatch, some "cloud"), ("bob-job", .dispatch, some "cloud")]) ∧
      ∃ length, ∃ trace ∈ ((tracedDispatch (Rack.limited 1).site 0 {}).run length
          (Rack.asked 1)).1.answer, AllLaunched trace ∧
        (trace.1.map Turn.decision).map Decision.shown =
          [("ann-job", .dispatch, some "cloud"), ("bob-job", .blockedCapacity, none)] := by
  obtain ⟨long, dry⟩ := Rack.asked_run 1 (Or.inl rfl) (planOne Rack.validateLaunch) ⟨0, [], [], []⟩
  obtain ⟨length, real⟩ := Rack.asked_run 1 (Or.inl rfl) traceOne ([], {})
  refine ⟨⟨long, ?_⟩, length, ?_⟩
  · rw [Broker.plan, dry]
    decide +kernel
  · rw [tracedDispatch, real]
    decide +kernel

end GpuBroker.Broker
