/-
This file is one look at a running job, from any state a run can leave: which
edges it takes, and what becomes of the record once the machine was stopped.

Every edge it asks for is in the graph but one: a machine taken away while the
job is `RESUMING`. There it stops the machine first and then raises. In every
other case nothing is raised once the machine was stopped, and the record is
moved. For that the cloud remembers whether it has stopped a machine.
-/
import GpuBroker.Broker.Rows

namespace GpuBroker.Broker

open Library

variable {γ : Type}

/-! ### No illegal edge -/

/-- A transaction of a process that is alone is not rolled back for the state of a job. -/
theorem exact_legal {outside : Outside γ} {world : World γ} {write : Write} {error : BrokerError}
    (exactly : Exact outside world write) (failed : write.apply world = .error error)
    (id : JobId) (current target : JobState) : error ≠ .illegalTransition id current target := by
  rintro rfl
  unfold Write.apply at failed
  split at failed
  · cases failed
  · next other written =>
    cases failed
    cases write with
    | move moving asked change now outstanding =>
        obtain ⟨⟨row, found, same⟩, _⟩ := exactly
        have state : row.state = moving.state := essence_eq same Job.state fun _ => rfl
        simp only [Write.onDb, Db.moveJob, found, state, ne_eq, not_true_eq_false, if_false] at written
        split at written <;> cases written
    | create job read | refuse job read =>
        simp only [Write.onDb, Db.insertJob] at written
        split at written <;> cases written
    | touch job columns now =>
        simp only [Write.onDb, Db.touchJob] at written
        split at written <;> cases written
    | insertUser | sampled | notify =>
        simp only [Write.onDb] at written
        split at written <;> cases written
    | updateUser | suspend | restore | settle | abandon | applyPrices => cases written

/-- A process that is alone and raises anything but an illegal transition. -/
def steering (γ : Type) : Setting γ :=
  { solitary Outside.unknown with
    raises := fun error => ∀ id current target, error ≠ .illegalTransition id current target
    fails := fun _ _ _ _ exactly failed => exact_legal (exactly trivial) failed }

/-- The machine of a job was taken away while the job is resuming. -/
def TakenResuming (site : Site γ) (job : Job) (cloud : γ) : Prop :=
  job.state = .resuming ∧ ∃ backend handle observation,
    site.backend (job.backend.getD "") = some backend ∧ job.backendHandle = some handle ∧
      (backend.poll handle cloud).1 = .ok observation ∧ observation.status = .interrupted

/-- A job that is active may be preempted, unless it is resuming. -/
theorem permits_preempted {setting : Setting γ} {job : Job} (active : job.state.active = true)
    (usual : job.state ≠ .checkpointing) (started : job.state ≠ .resuming) :
    setting.Permits job .preempted := by
  refine Or.inl ?_
  revert active usual started
  cases job.state <;> decide

theorem runs_steering (site : Site γ) : (steering γ).Runs site where
  ends := fun _ _ => ⟨fun _ _ _ => ⟨trivial, trivial⟩, fun _ _ _ _ _ _ _ => nofun⟩
  starts := fun _ _ => ⟨fun _ _ => trivial, fun _ _ _ _ _ _ => nofun, fun _ _ _ _ => trivial,
    fun _ _ _ _ => ⟨trivial, trivial, trivial⟩⟩
  watches := fun _ _ => ⟨fun _ _ _ => trivial, fun _ _ => trivial, fun _ _ _ _ _ _ => nofun,
    fun _ _ _ => trivial, fun _ _ _ _ _ => trivial, fun _ _ => trivial⟩
  latest := fun _ _ _ _ => trivial

/-- One look at an active job takes no illegal edge. -/
theorem safe_steering {site : Site γ} {job : Job} {now : Time} {world : World γ}
    (booked : Booked world) (found : world.db.jobs.find job.jobId = some job)
    (active : job.state.active = true) (shown : world.Shown now)
    (untaken : ¬ TakenResuming site job world.cloud) :
    (steering γ).WorksOn job.jobId (advance site job now) world := by
  have copy : (steering γ).Copy job world := copy_of_find booked found
  refine safe_advance (runs_steering site) ⟨fun _ _ _ _ _ => trivial, fun _ _ _ => trivial,
    fun _ _ => trivial⟩ (fun _ _ => trivial) (sole_alone trivial) copy active shown ?_
  intro backend handle observation hasBackend placed polled interrupted
  refine permits_preempted active copy.usual fun resuming => untaken ⟨resuming, backend, handle,
    observation, hasBackend, placed, ?_, interrupted⟩
  obtain ⟨cloud, same, answer⟩ := polled.answer
  rw [← same trivial]
  exact answer

/-! ### A cloud that remembers a stop -/

/-- A cloud, and whether it has stopped a machine. -/
structure Stopping (γ : Type) where
  cloud : γ
  stopped : Bool

/-- A call that stops nothing. -/
def Stopping.through {α : Type} (call : γ → α × γ) (stopping : Stopping γ) : α × Stopping γ :=
  ((call stopping.cloud).1, { stopping with cloud := (call stopping.cloud).2 })

/-- A backend whose stops are remembered; a call that raises has stopped nothing. -/
def Backend.stopping (backend : Backend γ) : Backend (Stopping γ) where
  name := backend.name
  currency := backend.currency
  tier := backend.tier
  supports := backend.supports
  freeSlots gpuType := Stopping.through (backend.freeSlots gpuType)
  launch job := Stopping.through (backend.launch job)
  start handle job := Stopping.through (backend.start handle job)
  poll handle := Stopping.through (backend.poll handle)
  fetchLogs handle after := Stopping.through (backend.fetchLogs handle after)
  sampleUtilization handle := Stopping.through (backend.sampleUtilization handle)
  terminate handle reason stopping :=
    let answer := backend.terminate handle reason stopping.cloud
    match answer.1 with
    | .ok () => (.ok (), ⟨answer.2, true⟩)
    | .error detail => (.error detail, ⟨answer.2, stopping.stopped⟩)

def Site.stopping (site : Site γ) : Site (Stopping γ) where
  backends := site.backends.map Backend.stopping
  latest := site.latest.map fun latest job => Stopping.through (latest job)
  score := site.score
  evidence := site.evidence

/-- A world from the moment its cloud starts to remember. -/
def World.stopping (world : World γ) : World (Stopping γ) where
  db := world.db
  config := world.config
  cloud := ⟨world.cloud, false⟩
  clock := world.clock
  asked := world.asked

theorem Booked.stopping {world : World γ} (booked : Booked world) : Booked world.stopping where
  rows := fun row member =>
    let mine := booked.rows row member
    ⟨mine.positive, mine.shown, mine.period, mine.owned⟩
  jobs := booked.jobs
  typed := booked.typed

/-- The machine was stopped. -/
def Halted (world : World (Stopping γ)) : Prop := world.cloud.stopped = true

/-- The backend, if its stops and its polls never raise. -/
def Backend.sure (backend : Backend γ) : Backend γ :=
  { backend with
    poll := fun handle cloud => (.ok ⟨.running, none, none⟩, (backend.poll handle cloud).2)
    terminate := fun handle reason cloud => (.ok (), (backend.terminate handle reason cloud).2) }

/-! ### The setting before the stop, and the one after it -/

/-- Only a stop changes whether the cloud has stopped a machine. -/
def Outside.unstopped (γ : Type) : Outside (Stopping γ) :=
  { Outside.unknown with
    calls := fun call before after => call = .other → after.stopped = before.stopped
    idle := fun _ _ => rfl }

/-- A process that is alone and stops nothing. -/
def watchful (γ : Type) : Setting (Stopping γ) :=
  { solitary (Outside.unstopped γ) with
    issues := fun call => call = .other
    rests := rfl }

/-- Streams of output that a log takes. -/
def Streamed (lines : List Line) : Prop := ∀ line ∈ lines, line.1 ∈ logStreams

/-- The transactions that follow a stop: notes, output, and moves that give the machine up. -/
def Write.Retires : Write → Prop
  | .touch _ columns _ => columns.Ours ∨ ∃ after polled kept, columns = .output after polled kept
  | .sampled _ _ | .notify _ => True
  | .move _ target _ _ _ => target.active = false
  | _ => False

/-- A transaction that follows a stop is committed. -/
theorem retires_commits {outside : Outside γ} {world : World γ} {write : Write} {error : BrokerError}
    (streamed : ∀ cloud backend handle after lines, outside.fetched cloud backend handle after lines →
      Streamed lines) (retires : write.Retires) (sound : Sound world write)
    (exactly : Exact outside world write) : write.apply world ≠ .error error := by
  intro failed
  cases write with
  | touch job columns now =>
      have beside : (Write.touch job columns now).beside := trivial
      refine beside_commits beside sound (fun _ _ _ same => ?_) failed
      cases same
      rcases retires with ours | ⟨after, polled, kept, rfl⟩
      · exact Touch.Ours.streams ours
      · obtain ⟨_, same, current, handle, _, _, _, _, _, answered⟩ := exactly
        refine List.all_eq_true.mpr fun line member => decide_eq_true ?_
        have member : line ∈ kept := member
        rw [same] at member
        rcases withinLogBudget_stream member with broker | ⟨whole, listed, rfl⟩
        · rw [broker]
          decide
        · rw [clipLine_stream]
          exact streamed _ _ _ _ _ answered whole listed
  | sampled | notify =>
      refine beside_commits ?_ sound (fun _ _ _ => nofun) failed
      exact trivial
  | move current target change now outstanding =>
      obtain ⟨⟨row, found, same⟩, _⟩ := exactly
      have moving : Moving world current target change now outstanding := sound
      have recorded := move_rolledBack found (essence_eq same Job.state fun _ => rfl) failed
      rw [moving.freed retires] at recorded
      cases recorded
  | insertUser | updateUser | suspend | restore | create | refuse | settle | abandon | applyPrices =>
      exact retires.elim

/-- What the machines put out goes to streams a log takes. -/
def Outside.streamed (γ : Type) : Outside (Stopping γ) :=
  { Outside.unknown with fetched := fun _ _ _ _ lines => Streamed lines }

/-- A process that is alone, has stopped a machine and raises nothing. -/
def retiring (γ : Type) : Setting (Stopping γ) :=
  { solitary (Outside.streamed γ) with
    makes := fun write _ => write.Retires
    lasts := fun made _ => made
    raises := fun _ => False
    unmoved := fun _ _ exactly _ => (exactly trivial).unmoved
    fails := fun _ _ retires sound exactly failed =>
      retires_commits (fun _ _ _ _ _ streamed => streamed) retires sound (exactly trivial) failed }

theorem watchful_hides : (watchful γ).contract.Hides Halted where
  rely := fun same unhalted => by
    rw [show _ = _ from same]
    exact unhalted
  guarantee := by
    intro label world next guarantee unhalted
    unfold Halted at unhalted ⊢
    cases label with
    | none =>
        obtain ⟨_, call, issued, kept⟩ := guarantee
        rw [show next.cloud.stopped = world.cloud.stopped from kept issued]
        exact unhalted
    | some write =>
        obtain ⟨_, _, left⟩ := guarantee
        have cloud : next.cloud = world.cloud := by
          rw [left, Write.leaves]
          split
          · next after applied =>
            obtain ⟨db, _, rfl⟩ := Write.apply_eq applied
            rfl
          · rfl
        rw [cloud]
        exact unhalted

theorem watches_watchful (backend : Backend γ) : (watchful γ).Watches backend.stopping where
  start := fun _ _ _ _ => rfl
  poll := fun _ _ _ => rfl
  blind := fun _ _ _ _ => trivial
  fetchLogs := fun _ _ _ _ => rfl
  answers := fun _ _ _ _ _ => trivial
  sampled := fun _ _ _ => rfl

/-- What the machines of a site put out goes to streams a log takes. -/
def Site.Streamed (site : Site γ) : Prop :=
  ∀ backend ∈ site.backends, ∀ handle after cloud lines,
    (backend.fetchLogs handle after cloud).1 = .ok lines → Broker.Streamed lines

theorem watches_retiring {site : Site γ} (streamed : site.Streamed) {backend : Backend γ}
    (mine : backend ∈ site.backends) : (retiring γ).Watches backend.stopping.sure where
  start := fun _ _ _ => trivial
  poll := fun _ _ => trivial
  blind := fun _ _ _ => nofun
  fetchLogs := fun _ _ _ => trivial
  answers := fun handle after cloud lines answer =>
    streamed backend mine handle after cloud.cloud lines answer
  sampled := fun _ _ => trivial

theorem ends_retiring (backend : Backend γ) : (retiring γ).Ends backend.stopping.sure where
  terminate := fun _ _ _ => ⟨trivial, trivial⟩
  stuck := fun _ _ _ _ => nofun

/-! ### One look, from the stop on -/

/-- Once the machine was stopped, nothing is raised, and the job ends up without one. -/
abbrev Settles {α : Type} (job : JobId) (program : Op (Stopping γ) α) (world : World (Stopping γ)) : Prop :=
  program.Since (watchful γ).contract (retiring γ).contract Halted
    (fun _ next => Idle (retiring γ) job next) world

section Parts

variable {α : Type} {job : JobId} {world : World (Stopping γ)}

theorem settles_external {call : Stopping γ → α × Stopping γ} {β : Type} {rest : α → Op (Stopping γ) β}
    (booked : Booked world) (still : (call world.cloud).2.stopped = world.cloud.stopped)
    (unhalted : ¬ Halted world)
    (resume : Settles job (rest (call world.cloud).1) (world.called (call world.cloud).2)) :
    Settles job (external call >>= rest) world := by
  intro current same _ _
  rw [show current = world from same]
  have dark : ¬ Halted (world.called (call world.cloud).2) := by
    unfold Halted
    rw [show (world.called (call world.cloud).2).cloud.stopped = world.cloud.stopped from still]
    exact unhalted
  exact ⟨booked.quiet rfl (world.called_quiet _).persists, fun halted => absurd halted dark,
    fun _ => resume⟩

theorem settles_settings {β : Type} {rest : BrokerConfig → Op (Stopping γ) β} (booked : Booked world)
    (unhalted : ¬ Halted world) (resume : Settles job (rest world.config) world) :
    Settles job (settings >>= rest) world := by
  intro current same _ _
  rw [show current = world from same]
  exact ⟨booked, fun halted => absurd halted unhalted, fun _ => resume⟩

theorem stopping_terminate_ok {backend : Backend γ} {handle why : String} {stopping : Stopping γ}
    (answer : (backend.terminate handle why stopping.cloud).1 = .ok ()) :
    (backend.stopping.terminate handle why stopping).1 = .ok () ∧
      (backend.stopping.terminate handle why stopping).2.stopped = true := by
  simp only [Backend.stopping, answer, and_self]

theorem stopping_terminate_error {backend : Backend γ} {handle why detail : String}
    {stopping : Stopping γ}
    (answer : (backend.terminate handle why stopping.cloud).1 = .error detail) :
    (backend.stopping.terminate handle why stopping).1 = .error detail ∧
      (backend.stopping.terminate handle why stopping).2.stopped = stopping.stopped := by
  simp only [Backend.stopping, answer, and_self]

/-- A part that stops the machine: what follows is that of a backend whose stops never raise. -/
theorem settles_terminate {backend : Backend γ} {handle why : String}
    {rest : Unit → Op (Stopping γ) α} (booked : Booked world) (unhalted : ¬ Halted world)
    (retires : (retiring γ).Retires job
      (externally (backend.stopping.sure.terminate handle why) >>= rest) world) :
    Settles job (externally (backend.stopping.terminate handle why) >>= rest) world := by
  rw [externally_bind] at retires ⊢
  intro current same _ _
  rw [show current = world from same]
  refine ⟨booked.quiet rfl (world.called_quiet _).persists, fun halted => ?_, fun dark => ?_⟩
  · cases answer : (backend.terminate handle why world.cloud.cloud).1 with
    | ok done =>
        have tail := safe_called booked retires
        simp only [(stopping_terminate_ok answer).1]
        exact Program.Safe.weaken tail fun _ _ _ both => both.2
    | error detail =>
        refine absurd ?_ unhalted
        exact (stopping_terminate_error answer).2.symm.trans halted
  · cases answer : (backend.terminate handle why world.cloud.cloud).1 with
    | ok done => exact absurd (stopping_terminate_ok answer).2 dark
    | error detail =>
        simp only [(stopping_terminate_error answer).1]
        trivial

/-! ### The parts of a look -/

theorem notes_retiring : (retiring γ).Notes :=
  ⟨fun _ _ _ _ ours => Or.inl ours, fun _ _ _ => trivial, fun _ _ => trivial⟩

theorem stops_retiring : (retiring γ).Stops :=
  ⟨fun _ _ _ _ _ _ idle => idle, fun _ after polled kept _ _ => Or.inr ⟨after, polled, kept, rfl⟩⟩

theorem notes_watchful : (watchful γ).Notes :=
  ⟨fun _ _ _ _ _ => trivial, fun _ _ _ => trivial, fun _ _ => trivial⟩

variable {site : Site γ} {backend : Backend γ} {current : Job} {handle : String} {outcome : Outcome}

theorem settles_stopRequested {actor : String} (streamed : site.Streamed)
    (mine : backend ∈ site.backends) (booked : Booked world) (unhalted : ¬ Halted world)
    (copy : (retiring γ).Copy current world) (active : current.state.active = true)
    (placed : Placed backend.stopping handle current) :
    Settles current.jobId (stopRequested current backend.stopping handle actor outcome) world := by
  have sure : Placed backend.stopping.sure handle current := ⟨placed.handle, placed.backend⟩
  exact settles_terminate booked unhalted (safe_stopRequested notes_retiring stops_retiring
    (ends_retiring backend) (watches_retiring streamed mine) copy active sure)

theorem settles_finish {target : JobState} {observation : Observation} (booked : Booked world)
    (unhalted : ¬ Halted world) (copy : (retiring γ).Copy current world)
    (active : current.state.active = true) (done : target = .failed ∨ target = .completed) :
    Settles current.jobId (finish current backend.stopping handle target observation outcome) world :=
  settles_terminate booked unhalted
    (safe_finish stops_retiring (ends_retiring backend) copy active done)

theorem settles_stopAtCeiling {config : BrokerConfig} {now : Time} (streamed : site.Streamed)
    (mine : backend ∈ site.backends) (booked : Booked world) (unhalted : ¬ Halted world)
    (copy : (retiring γ).Copy current world) (active : current.state.active = true)
    (placed : Placed backend.stopping handle current) (reached : Reached world current) :
    Settles current.jobId (stopAtCeiling config current now backend.stopping handle outcome) world := by
  have sure : Placed backend.stopping.sure handle current := ⟨placed.handle, placed.backend⟩
  exact settles_terminate booked unhalted (safe_stopAtCeiling notes_retiring stops_retiring
    (ends_retiring backend) (watches_retiring streamed mine) copy active sure fun _ => reached)

theorem settles_preempt {observation : Observation} (booked : Booked world) (unhalted : ¬ Halted world)
    (copy : (retiring γ).Copy current world) (active : current.state.active = true)
    (started : current.state ≠ .resuming) :
    Settles current.jobId (preempt site.stopping current backend.stopping observation outcome) world :=
  settles_terminate booked unhalted (safe_preempt notes_retiring stops_retiring
    (fun _ _ _ _ => trivial) (ends_retiring backend) copy active
    (permits_preempted active copy.usual started))

theorem settles_startCommand (booked : Booked world) (unhalted : ¬ Halted world)
    (copy : (retiring γ).Copy current world) (active : current.state.active = true) :
    Settles current.jobId (startCommand current backend.stopping handle outcome) world := by
  refine settles_external booked rfl unhalted ?_
  have called : Booked (world.called (backend.stopping.start handle current world.cloud).2) :=
    booked.quiet rfl (world.called_quiet _).persists
  have copyHere : (retiring γ).Copy current
      (world.called (backend.stopping.start handle current world.cloud).2) :=
    (keeps_quiet (world.called_quiet _)).copy copy
  split
  · exact Program.Since.bind watchful_hides (safe_appendLog notes_watchful copyHere.present) called
      unhalted fun _ _ _ _ _ => trivial
  · refine Program.Since.bind watchful_hides (safe_appendLog notes_watchful copyHere.present) called
      unhalted fun _ logged bookedHere dark noted => ?_
    have copyNow : (retiring γ).Copy current logged := noted.keeps.copy copyHere
    refine settles_terminate bookedHere dark (retires_terminate (ends_retiring backend)
      fun stopped kept _ => ?_)
    exact retires_transition (asks_stop stops_retiring active (permits_done active (Or.inl rfl)) rfl rfl
      rfl rfl rfl) (kept.copy copyNow) (Licence.free (Or.inr (by decide)) fun _ _ => nofun) rfl

/-- A machine of a job that is resuming was not taken away. -/
def Untaken (backend : Backend γ) (handle : String) (current : Job) (cloud : γ) : Prop :=
  current.state = .resuming → ∀ observation, (backend.poll handle cloud).1 = .ok observation →
    observation.status ≠ .interrupted

theorem settles_observe {now : Time} (streamed : site.Streamed) (mine : backend ∈ site.backends)
    (booked : Booked world) (unhalted : ¬ Halted world) (copy : (watchful γ).Copy current world)
    (active : current.state.active = true) (placed : Placed backend.stopping handle current)
    (shown : world.Shown now) (untaken : Untaken backend handle current world.cloud.cloud) :
    Settles current.jobId (observe site.stopping current now backend.stopping handle outcome) world := by
  have watches := watches_watchful backend
  show Settles _ (externally (backend.stopping.poll handle) >>= _) _
  rw [externally_bind]
  refine settles_external booked rfl unhalted ?_
  have calledKeeps : (watchful γ).Keeps none world
      (world.called (backend.stopping.poll handle world.cloud).2) := keeps_quiet (world.called_quiet _)
  have called : Booked (world.called (backend.stopping.poll handle world.cloud).2) :=
    booked.quiet rfl (world.called_quiet _).persists
  split
  · next observation answer =>
    refine Program.Since.bind watchful_hides (safe_drainLogs notes_watchful (fun _ _ _ _ _ => trivial)
      watches (calledKeeps.copy copy) active placed.handle placed.backend) called unhalted
      fun drained last bookedDrained dark drain => ?_
    have touch := drain.1
    refine Program.Since.bind watchful_hides (safe_sample notes_watchful watches touch.copy)
      bookedDrained dark fun _ sampled bookedHere darkHere noted => ?_
    have copyHere : (retiring γ).Copy drained sampled := noted.keeps.copy touch.copy
    have activeHere := touch.active active
    have placedHere : Placed backend.stopping handle drained :=
      ⟨touch.handle.trans placed.handle, by rw [drain.2.1]; exact placed.backend⟩
    have shownHere : sampled.Shown now :=
      (calledKeeps.1.trans (touch.noted.keeps.1.trans noted.keeps.1)).shown shown
    rw [← touch.id]
    split
    · exact settles_startCommand bookedHere darkHere copyHere activeHere
    · simp only
      split
      · next lost =>
        have interrupted : observation.status = .interrupted := by
          revert lost
          cases observation.status <;> simp [stateFor]
        refine settles_preempt bookedHere darkHere copyHere activeHere fun resuming => ?_
        exact untaken (touch.state.symm.trans resuming) observation answer interrupted
      · split
        · next alive concluded =>
          have done : stateFor observation.status = .failed ∨
              stateFor observation.status = .completed := by
            revert concluded
            cases observation.status <;> simp [stateFor, JobState.terminal]
          exact settles_finish bookedHere darkHere copyHere activeHere done
        · next alive up =>
          refine settles_settings bookedHere darkHere ?_
          cases kind : sampled.config.gpu drained.gpuType with
          | error error => trivial
          | ok gpu =>
              show Settles _ (if atCeiling sampled.config gpu drained now then _ else _) _
              split
              · next high =>
                exact settles_stopAtCeiling streamed mine bookedHere darkHere copyHere activeHere
                  placedHere ⟨gpu, kind, now, shownHere, high⟩
              · have target : stateFor observation.status = .allocating ∨
                    stateFor observation.status = .running := by
                  revert alive up
                  cases observation.status <;> simp [stateFor, JobState.terminal]
                have follows : (watchful γ).WorksOn drained.jobId (follow drained
                    (stateFor observation.status) backend.stopping observation outcome) sampled :=
                  safe_follow notes_watchful (fun _ _ => trivial) copyHere activeHere target
                exact Program.Safe.since watchful_hides follows darkHere
  · trivial

theorem stopping_backend (site : Site γ) (name : String) :
    site.stopping.backend name = (site.backend name).map Backend.stopping :=
  List.find?_map

/-- One look at a running job: once the machine was stopped, nothing is raised. -/
theorem settles_advance {now : Time} (streamed : site.Streamed) (booked : Booked world)
    (unhalted : ¬ Halted world) (copy : (watchful γ).Copy current world)
    (active : current.state.active = true) (shown : world.Shown now)
    (untaken : ¬ TakenResuming site current world.cloud.cloud) :
    Settles current.jobId (advance site.stopping current now) world := by
  unfold advance
  split
  · next stopping handle found placed =>
    rw [stopping_backend] at found
    obtain ⟨backend, hasBackend, rfl⟩ := Option.map_eq_some_iff.mp found
    obtain ⟨mine, name⟩ := Site.backend_mem hasBackend
    have held : Placed backend.stopping handle current := ⟨placed, name⟩
    have settles : (watchful γ).Safe (settleAccrued current now)
        (fun _ next => (watchful γ).Keeps none world next ∧
          ((watchful γ).alone → next.cloud = world.cloud)) world :=
      safe_settleAccrued (sole_alone trivial) copy active shown fun _ _ => trivial
    refine Program.Since.bind watchful_hides settles booked unhalted
      fun settled next bookedNext dark kept => ?_
    have copyHere := kept.1.copy copy
    simp only
    split
    · exact settles_stopRequested streamed mine bookedNext dark copyHere active held
    · refine settles_observe streamed mine bookedNext dark copyHere active held
        (kept.1.1.shown shown) fun resuming observation answer interrupted => ?_
      rw [kept.2 trivial] at answer
      exact untaken ⟨resuming, backend, handle, observation, hasBackend, placed, answer, interrupted⟩
  · trivial

end Parts

theorem taken_stopping {site : Site γ} {job : Job} {cloud : γ}
    (untaken : ¬ TakenResuming site job cloud) : ¬ TakenResuming site.stopping job ⟨cloud, false⟩ := by
  rintro ⟨resuming, stopping, handle, observation, found, placed, answer, interrupted⟩
  rw [stopping_backend] at found
  obtain ⟨backend, hasBackend, rfl⟩ := Option.map_eq_some_iff.mp found
  exact untaken ⟨resuming, backend, handle, observation, hasBackend, placed, answer, interrupted⟩

/-- One look at an active job of any state a run can leave, unless its machine was taken away while
it is resuming, takes no illegal edge; and once the machine was stopped it raises nothing and leaves
the job inactive. -/
theorem advance_takes_legal_edges (desk : Desk γ) (config : BrokerConfig) (cloud : γ)
    (clock : Nat → Time) (entries : List (Operation × Nat)) (job : Job) (now : Time) :
    let world := desk.after entries (World.new config cloud clock)
    let run := fun length => (advance desk.site.stopping job now).run length world.stopping
    world.db.jobs.find job.jobId = some job → job.state.active = true → world.Shown now →
      ¬ TakenResuming desk.site job world.cloud →
      (∀ length id current target,
        (run length).1.raised ≠ some (.illegalTransition id current target)) ∧
      (desk.site.Streamed → ∀ length, Halted (run length).2 → (run length).1.raised = none ∧
        ((run length).1.answer.isSome = true →
          ∃ row, (run length).2.db.jobs.find job.jobId = some row ∧ row.state.active = false)) ∧
      ∃ length, (run length).1.ended = true := by
  intro world run found active shown untaken
  have booked : Booked world.stopping := (desk.booked entries (Booked.new config cloud clock)).stopping
  have legal := safe_steering booked found active shown (taken_stopping untaken)
  refine ⟨fun length id current target raised => ?_, fun streamed length halted => ?_,
    Program.run_ends _ _⟩
  · exact legal.error booked (Program.allowed_always (fun _ _ => trivial) _ _ _) raised id current target rfl
  · have copy : (watchful γ).Copy job world.stopping := copy_of_find booked found
    have settles := settles_advance streamed booked Bool.false_ne_true copy active shown untaken
    obtain ⟨safe, kept⟩ := settles.run rfl (fun _ _ => trivial) booked Bool.false_ne_true
      (Program.allowed_always (fun _ _ => trivial) _ _ _) halted
    have still : Program.Allowed (retiring γ).contract.allowed 0 (run length).1 (run length).2 := trivial
    refine ⟨?_, fun answered => ?_⟩
    · cases raised : (run length).1.raised with
      | none => rfl
      | some error => exact (safe.error kept still raised).elim
    · obtain ⟨outcome, answer⟩ := Option.isSome_iff_exists.mp answered
      exact safe.result kept still answer trivial

/-- The club, with a checkpoint store, its machines taken away at the first and the third look. -/
def Rack.resuming : Desk Rack :=
  let desk := Rack.desk (fun poll => if poll = 1 then .pending else .interrupted) fun _ => []
  { desk with site := { desk.site with latest := some fun _ rack => (.ok (some (1, "key")), rack) } }

example : (Operation.ticks 4).length = 4 := by decide +kernel

/-- A job on a machine is looked at. -/
theorem advance_takes_legal_edges_running :
    let world := Rack.running.after (Operation.opening ++ Operation.ticks 1) (World.club .club)
    ∃ job, world.db.jobs.find "job" = some job ∧ ∀ length,
      ((advance Rack.running.site.stopping job 0).run length world.stopping).1.raised ≠
        some (.illegalTransition "job" .resuming .preempted) := by
  have row : ∃ job ∈ (Rack.running.after (Operation.opening ++ Operation.ticks 1)
      (World.club .club)).db.jobs.find "job", job.state = .allocating := by decide +kernel
  obtain ⟨job, found, waiting⟩ := row
  refine ⟨job, found, fun length => ?_⟩
  have id := Table.find_key found
  exact (advance_takes_legal_edges Rack.running .club ⟨0, 0⟩ (fun reading => reading * twelveMinutes)
    (Operation.opening ++ Operation.ticks 1) job 0 (id ▸ found) (by rw [waiting]; rfl)
    ⟨0, by decide +kernel, by decide +kernel⟩ fun taken => by
      rw [taken.1] at waiting
      cases waiting).1 length "job" .resuming .preempted

/-- The third look finds the job `RESUMING` and its machine taken away: it stops the machine and then
raises, and the record keeps the state and the machine. -/
theorem advance_takes_illegal_edge :
    let world := Rack.resuming.after (Operation.opening ++ List.replicate 3 (.tick, 60))
      (World.club .club)
    ∃ job ∈ world.db.jobs.find "job", job.state.active = true ∧
      let left := (advance Rack.resuming.site.stopping job 0).run 40 world.stopping
      left.1.raised = some (.illegalTransition "job" .resuming .preempted) ∧
        left.2.cloud.stopped = true ∧
        (left.2.db.jobs.rows.map fun row => (row.state, row.backendHandle)) =
          [(.resuming, some "i-2")] := by
  decide +kernel

end GpuBroker.Broker
