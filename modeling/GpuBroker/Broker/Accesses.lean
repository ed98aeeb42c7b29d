/-
This file is the accesses the programs of the broker are made of: readings of
the clock and of the database, transactions, and calls of backends.

A manner says what an access is to be like. Most transactions are ordinary: they
put no machine on a record and do not complete a job. A program is calm when it
keeps to the manner wherever it starts, and the parts of the broker that make
only ordinary transactions and calls of a kind are; what launches a machine,
starts a command or completes a job is left to those who ask about it.
-/
import GpuBroker.Library.Calls
import GpuBroker.Broker.Runs

namespace GpuBroker.Broker

open Library

variable {γ α β : Type}

/-- A transaction that puts no machine on a record and does not complete a job. -/
def Write.ordinary : Write → Prop
  | .move _ target change _ _ => target ≠ .completed ∧ change.backend = none ∧ change.backendHandle = none
  | _ => True

/-- A transaction that is legal wherever it is made: it takes a legal edge, or begins a history. -/
def Write.legal : Write → Prop
  | .move current target _ _ _ => current.state.canTransition target = true
  | .create job _ => job.state = .queued
  | .refuse job _ => job.state = .refused
  | _ => True

/-- What an access is to be like, with what others and calls change, when readings, such calls and ordinary
transactions are like it. -/
structure Manner (γ : Type) where
  others : World γ → World γ → Prop
  refl : ∀ world, others world world
  trans : ∀ {one two three}, others one two → others two three → others one three
  owes : Option Write → World γ → World γ → Prop
  calls : γ → γ → Prop
  rests : ∀ world, owes none world world
  reads : ∀ world, owes none world world.ticked
  serves : ∀ world cloud, calls world.cloud cloud → owes none world (world.called cloud)
  writes : ∀ write world, write.ordinary → write.legal → owes (some write) world (write.leaves world)

/-- The contract of a program that keeps to a manner among others. -/
abbrev Manner.contract (manner : Manner γ) : Contract (World γ) Write BrokerError :=
  Contract.amid manner.others manner.refl manner.trans manner.owes

/-- A program keeps to a manner wherever it starts and whatever others do, and comes to a result of a kind. -/
abbrev Manner.Comes (manner : Manner γ) (program : Op γ α) (post : α → Prop) : Prop :=
  ∀ world, program.Safe manner.contract (fun value _ => post value) world

/-- A program keeps to a manner wherever it starts and whatever others do. -/
abbrev Manner.Calm (manner : Manner γ) (program : Op γ α) : Prop :=
  manner.Comes program fun _ => True

/-- The calls of a backend that neither launch a machine nor start a command. -/
structure Manner.Serves (manner : Manner γ) (backend : Backend γ) : Prop where
  freeSlots : ∀ gpuType cloud, manner.calls cloud (backend.freeSlots gpuType cloud).2
  poll : ∀ handle cloud, manner.calls cloud (backend.poll handle cloud).2
  fetchLogs : ∀ handle after cloud, manner.calls cloud (backend.fetchLogs handle after cloud).2
  sampleUtilization : ∀ handle cloud, manner.calls cloud (backend.sampleUtilization handle cloud).2
  terminate : ∀ handle reason cloud, manner.calls cloud (backend.terminate handle reason cloud).2

/-- The calls of a site that neither launch a machine nor start a command. -/
structure Manner.Runs (manner : Manner γ) (site : Site γ) : Prop where
  backends : ∀ backend ∈ site.backends, manner.Serves backend
  latest : ∀ latest ∈ site.latest, ∀ job cloud, manner.calls cloud (latest job cloud).2

variable {manner : Manner γ} {post : β → World γ → Prop} {world : World γ}

/-! ### Rules -/

theorem calm_pure (value : α) : manner.Calm (pure value : Op γ α) := fun _ _ _ _ => trivial

theorem calm_fail (error : BrokerError) : manner.Calm (.fail error : Op γ α) := fun _ _ _ _ => trivial

theorem calm_bind {first : Op γ α} {rest : α → Op γ β} (begins : manner.Calm first)
    (resumes : ∀ value, manner.Calm (rest value)) : manner.Calm (first >>= rest) :=
  fun world => (begins world).bind fun value current _ _ => resumes value current

theorem comes_bind {middle : α → Prop} {post : β → Prop} {first : Op γ α} {rest : α → Op γ β}
    (begins : manner.Comes first middle) (resumes : ∀ value, middle value → manner.Comes (rest value) post) :
    manner.Comes (first >>= rest) post :=
  fun world => (begins world).bind fun value current _ holds => resumes value holds current

theorem calm_now {rest : Time → Op γ β} (resumes : ∀ moment, manner.Calm (rest moment)) :
    manner.Calm (now >>= rest) :=
  fun _ current _ _ _ => ⟨trivial, manner.reads current, resumes _ _⟩

theorem comes_read {view : World γ → α} {post : β → Prop} {rest : α → Op γ β}
    (resumes : ∀ value, manner.Comes (rest value) post) : manner.Comes (Program.read view >>= rest) post :=
  fun _ current _ _ _ => ⟨trivial, manner.rests current, resumes _ _⟩

theorem calm_query {view : Db → α} {rest : α → Op γ β} (resumes : ∀ value, manner.Calm (rest value)) :
    manner.Calm (query view >>= rest) :=
  comes_read resumes

theorem calm_asking (view : Db → α) : manner.Calm (query view : Op γ α) :=
  fun _ current _ _ _ => ⟨trivial, manner.rests current, fun _ _ _ => trivial⟩

theorem calm_settings {rest : BrokerConfig → Op γ β} (resumes : ∀ config, manner.Calm (rest config)) :
    manner.Calm (settings >>= rest) :=
  comes_read resumes

theorem calm_orRaise {value : Except BrokerError α} {rest : α → Op γ β}
    (resumes : ∀ found, manner.Calm (rest found)) : manner.Calm (orRaise value >>= rest) := by
  cases value with
  | ok found => exact resumes found
  | error error => exact calm_fail error

/-- A transaction that is like it should be wherever it is made. -/
theorem calm_owed {write : Write} {value : α}
    (owed : ∀ world, manner.owes (some write) world (write.leaves world)) :
    manner.Calm (executing write value : Op γ α) := by
  intro world current _ _ _
  have owed := owed current
  unfold Write.leaves at owed
  simp only
  split
  · next next applied =>
    rw [applied] at owed
    exact ⟨trivial, owed, fun _ _ _ => trivial⟩
  · next error failed =>
    rw [failed] at owed
    exact ⟨trivial, owed, fun _ _ _ => trivial⟩

theorem calm_executing {write : Write} {value : α} (ordinary : write.ordinary) (legal : write.legal) :
    manner.Calm (executing write value : Op γ α) :=
  calm_owed fun world => manner.writes write world ordinary legal

theorem comes_external {call : γ → α × γ} {post : β → Prop} {rest : α → Op γ β}
    (serves : ∀ cloud, manner.calls cloud (call cloud).2) (resumes : ∀ value, manner.Comes (rest value) post) :
    manner.Comes (external call >>= rest) post :=
  fun _ current _ _ _ => ⟨trivial, manner.serves current _ (serves current.cloud), resumes _ _⟩

theorem calm_external {call : γ → α × γ} {rest : α → Op γ β}
    (serves : ∀ cloud, manner.calls cloud (call cloud).2) (resumes : ∀ value, manner.Calm (rest value)) :
    manner.Calm (external call >>= rest) :=
  comes_external serves resumes

theorem comes_externally {call : γ → Except String α × γ} {post : β → Prop} {rest : α → Op γ β}
    (serves : ∀ cloud, manner.calls cloud (call cloud).2) (resumes : ∀ value, manner.Comes (rest value) post) :
    manner.Comes (externally call >>= rest) post := by
  rw [externally_bind]
  refine comes_external serves fun answer => ?_
  cases answer with
  | ok value => exact resumes value
  | error detail => exact fun _ _ _ _ => trivial

theorem calm_externally {call : γ → Except String α × γ} {rest : α → Op γ β}
    (serves : ∀ cloud, manner.calls cloud (call cloud).2) (resumes : ∀ value, manner.Calm (rest value)) :
    manner.Calm (externally call >>= rest) :=
  comes_externally serves resumes

theorem calm_calling {call : γ → Except String α × γ} (serves : ∀ cloud, manner.calls cloud (call cloud).2) :
    manner.Calm (externally call : Op γ α) := by
  have ended : (externally call : Op γ α) = externally call >>= pure := (bind_pure _).symm
  rw [ended]
  exact calm_externally serves calm_pure

theorem calm_foldlM {step : β → α → Op γ β} (each : ∀ value item, manner.Calm (step value item))
    (items : List α) (value : β) : manner.Calm (items.foldlM step value) := by
  induction items generalizing value with
  | nil => exact calm_pure value
  | cons item items inductionHypothesis =>
      rw [List.foldlM_cons]
      exact calm_bind (each value item) inductionHypothesis

/-! ### Notes, records and readings -/

/-- A move that is like it should be wherever it is made. -/
theorem calm_moving {job : Job} {target : JobState} {change : Change}
    (owed : job.state.canTransition target = true → ∀ now outstanding world,
      manner.owes (some (.move job target change now outstanding)) world
        ((Write.move job target change now outstanding).leaves world)) :
    manner.Calm (transition job target change : Op γ Job) := by
  unfold transition
  split
  · next legal =>
    have moves : ∀ now outstanding (value : Job),
        manner.Calm (executing (.move job target change now outstanding) value) :=
      fun now outstanding value => calm_owed (owed legal now outstanding)
    refine calm_now fun moment => ?_
    split
    · exact calm_query fun holding => moves _ _ _
    · exact moves _ _ _
  · exact calm_fail _

theorem calm_transition {job : Job} {target : JobState} {change : Change} (incomplete : target ≠ .completed)
    (unsited : change.backend = none) (unplaced : change.backendHandle = none) :
    manner.Calm (transition job target change : Op γ Job) :=
  calm_moving fun legal _ _ world => manner.writes _ world ⟨incomplete, unsited, unplaced⟩ legal

theorem calm_appendLog (job : JobId) (line : String) : manner.Calm (appendLog job line : Op γ Unit) := by
  refine calm_settings fun config => calm_query fun stored => ?_
  simp only
  split
  · exact calm_pure _
  · exact calm_now fun moment => calm_executing trivial trivial

theorem calm_appendBackendLogs (job : Job) (lines : List Line) :
    manner.Calm (appendBackendLogs job lines : Op γ Nat) := by
  unfold appendBackendLogs
  split
  · exact calm_pure _
  · exact calm_now fun moment => calm_settings fun config => calm_query fun stored => calm_executing trivial trivial

theorem calm_notify (user : UserId) (job : Option JobId) (notice : Notice) :
    manner.Calm (notify user job notice : Op γ Notification) :=
  calm_now fun _ => calm_executing trivial trivial

theorem calm_recordSamples (job : JobId) (samples : List Sample) :
    manner.Calm (recordSamples job samples : Op γ Unit) := by
  unfold recordSamples
  split
  · exact calm_pure _
  · exact calm_executing trivial trivial

theorem calm_recordAttempt (job : Job) : manner.Calm (recordAttempt job : Op γ Job) :=
  calm_now fun _ => calm_executing trivial trivial

theorem calm_settle (job : Job) (amount : Decimal) (accrued : Time) :
    manner.Calm (settle job amount accrued : Op γ Unit) := by
  unfold settle
  split
  · exact calm_pure _
  · exact calm_now fun moment => calm_executing trivial trivial

theorem calm_evaluate (job : Job) : manner.Calm (evaluate job : Op γ IdleVerdict) := by
  refine calm_settings fun config => calm_now fun moment => calm_query fun samples =>
    calm_query fun notified => ?_
  simp only
  split
  · exact calm_pure _
  · split
    · exact calm_pure _
    · exact calm_query fun history => calm_orRaise fun gpu => calm_pure _

theorem calm_warnIdle (verdict : IdleVerdict) : manner.Calm (warnIdle verdict : Op γ Unit) := by
  unfold warnIdle
  split
  · exact calm_pure _
  · exact calm_bind (calm_notify _ _ _) fun _ => calm_appendLog _ _

/-! ### A look at a running job -/

theorem calm_sample {job : Job} {backend : Backend γ} (serves : manner.Serves backend) :
    manner.Calm (sample job backend) := by
  refine calm_now fun moment => calm_query fun last => calm_settings fun config => ?_
  split
  · exact calm_pure _
  · refine calm_external (serves.sampleUtilization _) fun answer => ?_
    cases answer with
    | error detail => exact calm_pure _
    | ok readings =>
        simp only
        split
        · exact calm_pure _
        · exact calm_bind (calm_recordSamples _ _) fun _ => calm_bind (calm_evaluate job) fun verdict =>
            calm_warnIdle verdict

theorem calm_settleAccrued (job : Job) (now : Time) : manner.Calm (settleAccrued job now : Op γ Bool) := by
  refine calm_bind (calm_settings fun config => calm_orRaise fun gpu => calm_query fun already =>
    calm_pure _) fun accrued => ?_
  split
  · exact calm_bind (calm_settle _ _ _) fun _ => calm_pure _
  · exact calm_pure _

theorem calm_drainLogs {job : Job} {backend : Backend γ} (serves : manner.Serves backend) :
    manner.Calm (drainLogs job backend) := by
  refine calm_external (serves.fetchLogs _ _) fun answer => ?_
  cases answer with
  | error detail => exact calm_bind (calm_appendLog _ _) fun _ => calm_pure _
  | ok lines =>
      simp only
      split
      · exact calm_pure _
      · exact calm_bind (calm_appendBackendLogs _ _) fun cursor => calm_pure _

theorem calm_collectCheckpoint {site : Site γ} {job : Job} (runs : manner.Runs site) :
    manner.Calm (collectCheckpoint site job) := by
  unfold collectCheckpoint
  split
  · exact calm_pure _
  · next latest found =>
    refine calm_external (runs.latest latest found _) fun answer => ?_
    split
    · exact calm_bind (calm_appendLog _ _) fun _ => calm_pure _
    · exact calm_pure _
    · split
      · exact calm_pure _
      · exact calm_bind (calm_now fun moment => calm_executing trivial trivial) fun job => calm_pure _

theorem calm_requeue (job : Job) (outcome : Outcome) : manner.Calm (requeue job outcome : Op γ Outcome) :=
  calm_bind (calm_appendLog _ _) fun _ =>
    calm_bind (calm_transition (by decide) rfl rfl) fun job => calm_pure _

theorem calm_preempt {site : Site γ} {job : Job} {backend : Backend γ} {observation : Observation}
    {outcome : Outcome} (runs : manner.Runs site) (serves : manner.Serves backend) :
    manner.Calm (preempt site job backend observation outcome) := by
  refine calm_externally (serves.terminate _ _) fun _ => ?_
  refine calm_bind (calm_collectCheckpoint runs) fun progressed => ?_
  refine calm_bind (calm_now fun moment => calm_executing trivial trivial) fun counted => ?_
  refine calm_bind (calm_transition (by decide) rfl rfl) fun lost => calm_settings fun config => ?_
  split
  · refine calm_orRaise fun gpu => ?_
    simp only
    split
    · exact calm_bind (calm_appendLog _ _) fun _ => calm_requeue _ _
    · exact calm_bind (calm_now fun moment => calm_executing trivial trivial) fun pinned =>
        calm_bind (calm_notify _ _ _) fun _ => calm_requeue _ _
  · exact calm_requeue _ _

theorem calm_stopRequested {job : Job} {backend : Backend γ} {handle actor : String} {outcome : Outcome}
    (serves : manner.Serves backend) : manner.Calm (stopRequested job backend handle actor outcome) :=
  calm_externally (serves.terminate _ _) fun _ => calm_bind (calm_drainLogs serves) fun drained =>
    calm_bind (calm_transition (by decide) rfl rfl) fun job => calm_pure _

theorem calm_stopAtCeiling {config : BrokerConfig} {job : Job} {now : Time} {backend : Backend γ}
    {handle : String} {outcome : Outcome} (serves : manner.Serves backend) :
    manner.Calm (stopAtCeiling config job now backend handle outcome) :=
  calm_externally (serves.terminate _ _) fun _ => calm_bind (calm_drainLogs serves) fun drained =>
    calm_bind (calm_transition (by decide) rfl rfl) fun _ => calm_pure _

/-- The start of a command is calm when the call is. -/
theorem calm_startCommand {job : Job} {backend : Backend γ} {handle : String} {outcome : Outcome}
    (starts : ∀ cloud, manner.calls cloud (backend.start handle job cloud).2) (serves : manner.Serves backend) :
    manner.Calm (startCommand job backend handle outcome) := by
  refine calm_external starts fun answer => ?_
  cases answer with
  | ok _ => exact calm_bind (calm_appendLog _ _) fun _ => calm_pure _
  | error detail =>
      exact calm_bind (calm_appendLog _ _) fun _ => calm_externally (serves.terminate _ _) fun _ =>
        calm_bind (calm_transition (by decide) rfl rfl) fun job => calm_pure _

/-- The end of a job is calm when its move is. -/
theorem calm_finish {job : Job} {backend : Backend γ} {handle : String} {target : JobState}
    {observation : Observation} {outcome : Outcome} (serves : manner.Serves backend)
    (owed : job.state.canTransition target = true → ∀ change now outstanding world, change.backend = none →
      change.backendHandle = none → manner.owes (some (.move job target change now outstanding)) world
        ((Write.move job target change now outstanding).leaves world)) :
    manner.Calm (finish job backend handle target observation outcome) :=
  calm_externally (serves.terminate _ _) fun _ =>
    calm_bind (calm_moving fun legal _ _ _ => owed legal _ _ _ _ rfl rfl) fun _ => calm_pure _

theorem calm_follow {job : Job} {target : JobState} {backend : Backend γ} {observation : Observation}
    {outcome : Outcome} (incomplete : target ≠ .completed) :
    manner.Calm (follow job target backend observation outcome) := by
  unfold follow
  extract_lets aimed
  have unfinished : aimed ≠ .completed := by
    show (if _ then _ else target) ≠ _
    split
    · decide
    · exact incomplete
  split
  · exact calm_pure _
  · split
    · exact calm_bind (calm_transition unfinished rfl rfl) fun job => calm_pure _
    · exact calm_bind (calm_appendLog _ _) fun _ => calm_pure _

/-! ### The queue -/

theorem calm_poolHeadroom (currency : Currency) : manner.Calm (poolHeadroom currency : Op γ Decimal) := by
  refine calm_settings fun config => calm_bind (calm_settings fun config => calm_now fun moment =>
    calm_query fun spent => calm_query fun jobs => calm_bind (calm_foldlM (fun holds job => ?_) _ _)
      fun holds => calm_pure _) fun committed => calm_pure _
  unfold addHolding
  split
  · exact calm_query fun holding => calm_pure _
  · exact calm_pure _

theorem comes_firstFree {currency : Currency} {gpuType : String} {backends : List (Backend γ)}
    (serves : ∀ backend ∈ backends, manner.Serves backend) (skipped : List (String × String)) :
    manner.Comes (firstFree currency gpuType backends skipped)
      fun chosen => ∀ placement ∈ chosen, placement.backend ∈ backends := by
  induction backends generalizing skipped with
  | nil => exact fun _ _ _ _ _ member => by cases member
  | cons backend backends inductionHypothesis =>
      have onward : ∀ skipped, manner.Comes (firstFree currency gpuType backends skipped)
          fun chosen => ∀ placement ∈ chosen, placement.backend ∈ backend :: backends :=
        fun skipped world => (inductionHypothesis
          (fun other member => serves other (List.mem_cons_of_mem _ member)) skipped world).weaken
          fun chosen _ _ found placement member => List.mem_cons_of_mem _ (found placement member)
      unfold firstFree
      simp only
      split
      · exact onward _
      · split
        · exact onward _
        · refine comes_externally ((serves backend List.mem_cons_self).freeSlots _) fun free => ?_
          split
          · exact onward _
          · rintro world last _ _ placement same
            cases same
            exact List.mem_cons_self

/-- A placement is on a backend of the site. -/
theorem comes_choose {site : Site γ} {job : Job} (runs : manner.Runs site) :
    manner.Comes (choose site job) fun chosen => ∀ placement ∈ chosen, placement.backend ∈ site.backends := by
  refine comes_read fun config => ?_
  cases config.gpu job.gpuType with
  | error error => exact fun _ _ _ _ => trivial
  | ok gpu =>
      have listed : ∀ backend ∈ (tiersFor config job).flatMap (fun tier =>
          site.backends.filter fun backend => backend.tierOf = tier), backend ∈ site.backends := by
        intro backend member
        obtain ⟨tier, _, filtered⟩ := List.mem_flatMap.mp member
        exact (List.mem_filter.mp filtered).1
      intro world
      exact (comes_firstFree (fun backend member => runs.backends backend (listed backend member)) [] world).weaken
        fun chosen _ _ found placement member => listed _ (found placement member)

theorem calm_decideQueue {policy : Policy γ α} (runs : manner.Runs policy.site)
    (consumes : ∀ report job action placement, (∀ placed ∈ placement, placed.backend ∈ policy.site.backends) →
      manner.Calm (policy.consume report job action placement)) (jobs : List Job) (pass : Pass) (report : α) :
    manner.Calm (decideQueue policy jobs pass report) := by
  have idle : ∀ report job action, manner.Calm (policy.consume report job action none) :=
    fun report job action => consumes report job action none fun _ => nofun
  induction jobs generalizing pass report with
  | nil => exact calm_pure _
  | cons job rest inductionHypothesis =>
      unfold decideQueue
      split
      · exact calm_bind (idle _ _ _) fun after => inductionHypothesis pass after
      · split
        · exact calm_bind (idle _ _ _) fun after => inductionHypothesis pass after
        · refine calm_bind ?_ fun count => ?_
          · unfold heldBy
            split
            · exact calm_pure _
            · exact calm_asking _
          · simp only
            split
            · exact calm_bind (idle _ _ _) fun after => inductionHypothesis _ after
            · split
              · refine calm_bind (idle _ _ _) fun after => ?_
                split
                · exact calm_foldlM (fun report other => idle report other _) rest after
                · exact inductionHypothesis _ after
              · refine comes_bind (comes_choose runs) fun chosen among => ?_
                cases chosen with
                | none => exact calm_bind (idle _ _ _) fun after => inductionHypothesis _ after
                | some placement =>
                    exact calm_bind (consumes _ _ _ _ among) fun after => inductionHypothesis _ after

theorem calm_decisions {site : Site γ} {now : Time} {report : α}
    {consume : α → Job → Action → Option (Placement γ) → Op γ α} (runs : manner.Runs site)
    (consumes : ∀ report job action placement, (∀ placed ∈ placement, placed.backend ∈ site.backends) →
      manner.Calm (consume report job action placement)) :
    manner.Calm (decisions site now consume report) :=
  calm_settings fun _ => calm_bind (calm_poolHeadroom _) fun _ =>
    calm_bind (calm_poolHeadroom _) fun _ =>
      calm_bind (calm_query fun _ => calm_query fun _ => calm_pure _) fun queue =>
        calm_query fun _ => calm_decideQueue runs consumes queue _ report

/-- A pass over the queue is calm when launches are. -/
theorem calm_dispatch {site : Site γ} {now : Time} {report : TickReport} (runs : manner.Runs site)
    (launches : ∀ report job placement, placement.backend ∈ site.backends →
      manner.Calm (launch report job placement)) : manner.Calm (dispatch site now report) := by
  refine calm_decisions runs fun report job action placement among => ?_
  refine calm_settings fun config => calm_orRaise fun gpu => ?_
  cases action <;> cases placement <;> first | exact calm_pure _ | exact launches _ _ _ (among _ rfl)

/-! ### The other operations -/

theorem calm_getUser (user : UserId) : manner.Calm (getUser user : Op γ User) := by
  refine calm_query fun found => ?_
  cases found with
  | none => exact calm_fail _
  | some found => exact calm_pure _

theorem calm_upsertUser (user : UserId) (displayName : Option String)
    (budgetUsd budgetGpuHours : Option Decimal) (isAdmin : Option Bool) :
    manner.Calm (upsertUser user displayName budgetUsd budgetGpuHours isAdmin : Op γ User) := by
  refine calm_settings fun config => calm_query fun existing => calm_now fun moment => ?_
  cases existing <;> exact calm_executing trivial trivial

theorem calm_refusalOf (config : BrokerConfig) (user : User) (currency : Currency) (reserved : Decimal) :
    manner.Calm (refusalOf config user currency reserved : Op γ (Except Refusal Admission)) := by
  unfold refusalOf
  split
  · exact calm_pure _
  · split
    · exact calm_pure _
    · refine calm_query fun queued => ?_
      split
      · exact calm_pure _
      · refine calm_bind (calm_settings fun config => calm_now fun moment => calm_bind (calm_getUser _)
          fun user => calm_query fun account => calm_pure _) fun balance => ?_
        split <;> exact calm_pure _

theorem calm_submit (request : Submission) (text : Refusal → String) :
    manner.Calm (submit request text : Op γ (Job × Option Refusal)) := by
  refine calm_settings fun config => calm_orRaise fun gpu => calm_bind (calm_getUser _) fun user =>
    calm_bind (calm_refusalOf _ _ _ _) fun verdict => ?_
  cases verdict with
  | error refusal =>
      exact calm_bind (calm_now fun moment => calm_executing trivial rfl) fun job => calm_pure _
  | ok read =>
      exact calm_bind (calm_bind (calm_getUser _) fun user => calm_now fun moment => calm_executing trivial rfl)
        fun job => calm_pure _

theorem calm_findJob (pre : String) : manner.Calm (findJob pre : Op γ Job) := by
  refine calm_query fun rows => ?_
  split
  · exact calm_fail _
  · exact calm_pure _
  · exact calm_fail _

theorem calm_authorize (job : Job) (actor : Option UserId) (admin : Bool) :
    manner.Calm (authorize job actor admin : Op γ Unit) := by
  unfold authorize
  split
  · exact calm_pure _
  · split
    · exact calm_pure _
    · refine calm_query fun found => ?_
      split
      · split
        · exact calm_pure _
        · exact calm_fail _
      · exact calm_fail _

theorem calm_terminateHeld {site : Site γ} {job : Job} {why : String} (runs : manner.Runs site) :
    manner.Calm (terminateHeld site job why) := by
  unfold terminateHeld
  split
  · split
    · next backend found => exact calm_calling ((runs.backends _ (Site.backend_mem found).1).terminate _ _)
    · exact calm_pure _
  · exact calm_pure _

theorem calm_cancel {site : Site γ} {pre : String} {actor : Option UserId} {admin : Bool}
    (runs : manner.Runs site) : manner.Calm (cancel site pre actor admin) := by
  refine calm_bind (calm_findJob _) fun job => calm_bind (calm_authorize _ _ _) fun _ => ?_
  split
  · exact calm_fail _
  · exact calm_bind (calm_terminateHeld runs) fun _ => calm_transition (by decide) rfl rfl

theorem calm_evaluateAll (jobs : List Job) : manner.Calm (evaluateAll jobs : Op γ (List IdleVerdict)) := by
  induction jobs with
  | nil => exact calm_pure _
  | cons job jobs inductionHypothesis =>
      exact calm_bind (calm_evaluate job) fun verdict => calm_bind inductionHypothesis fun rest => calm_pure _

theorem calm_idleJobs : manner.Calm (idleJobs : Op γ (List IdleVerdict)) :=
  calm_query fun jobs => calm_bind (calm_evaluateAll jobs) fun _ => calm_pure _

theorem calm_reclaimOne {site : Site γ} {verdict : IdleVerdict} (runs : manner.Runs site) :
    manner.Calm (reclaimOne site verdict) :=
  calm_settings fun config => calm_now fun moment => calm_bind (calm_notify _ _ _) fun _ =>
    calm_bind (calm_appendLog _ _) fun _ => calm_bind (calm_terminateHeld runs) fun _ =>
      calm_bind (calm_transition (by decide) rfl rfl) fun _ => calm_pure _

theorem calm_reclaim {site : Site γ} {force : Bool} (runs : manner.Runs site) :
    manner.Calm (reclaim site force) := by
  refine calm_settings fun config => calm_bind calm_idleJobs fun verdicts =>
    calm_bind (calm_foldlM (fun report verdict => ?_) _ _) fun report =>
      calm_bind calm_idleJobs fun idle => calm_pure _
  refine calm_bind ?_ fun allowed => ?_
  · unfold reclaimable
    split
    · exact calm_pure _
    · split
      · exact calm_now fun moment => calm_pure _
      · exact calm_pure _
  · split
    · simp only
      split
      · exact calm_bind (calm_reclaimOne runs) fun _ => calm_pure _
      · exact calm_pure _
    · exact calm_pure _

theorem calm_reap (orphans : List Orphan) : manner.Calm (reap orphans : Op γ Unit) := by
  refine calm_foldlM (fun _ orphan => ?_) orphans ()
  split
  · refine calm_bind (calm_query fun already => ?_) fun charged => calm_pure _
    simp only
    split
    · exact calm_pure _
    · exact calm_query fun known => calm_query fun owner => calm_now fun moment => calm_executing trivial trivial
  · exact calm_pure _

/-- Every operation but the pass of the scheduler is calm. -/
theorem calm_operation {site : Site γ} {text : Refusal → String} (runs : manner.Runs site)
    (operation : Operation) (idle : operation ≠ .tick) : manner.Calm (operation.program site text) := by
  have done : ∀ {α : Type} {program : Op γ α}, manner.Calm program →
      manner.Calm (program >>= fun _ => pure ()) := fun calm => calm_bind calm fun _ => calm_pure ()
  cases operation with
  | upsertUser => exact done (calm_upsertUser _ _ _ _ _)
  | suspendUser =>
      exact done (calm_bind (calm_getUser _) fun user => calm_now fun moment => calm_executing trivial trivial)
  | restoreUser => exact done (calm_bind (calm_getUser _) fun user => calm_executing trivial trivial)
  | submit => exact done (calm_submit _ _)
  | tick => exact absurd rfl idle
  | cancel => exact done (calm_cancel runs)
  | requestCancel =>
      exact done (calm_bind (calm_findJob _) fun job => calm_now fun moment => calm_executing trivial trivial)
  | reclaim => exact done (calm_reclaim runs)
  | reap => exact calm_reap _
  | refreshPrices => exact calm_executing trivial trivial

end GpuBroker.Broker
