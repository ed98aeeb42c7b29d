/-
This file is the passes of the scheduler under the contract.

The pass over running jobs works on copies read at its start, each used once.
The pass over the queue commits reservations against a headroom read at its
start; for a process that is alone the invariant of the loop is that what the
pass has left of it is room in the pool as it stands.
-/
import GpuBroker.Broker.Notes

namespace GpuBroker.Broker

open Library

variable {γ : Type} {setting : Setting γ} {world next : World γ}

/-! ### Parts of a pass -/

/-- A part of a pass that works on one job and leaves the copies of the others good. -/
abbrev Setting.WorksOn {α : Type} (setting : Setting γ) (job : JobId) (program : Op γ α)
    (world : World γ) : Prop :=
  setting.Safe program (fun _ next => setting.Keeps (some job) world next) world

theorem keeps_call (cloud : γ) (others : setting.others world next) :
    setting.Keeps none world (next.called cloud) :=
  (keeps_others others).trans (keeps_quiet (next.called_quiet cloud))

theorem steady_others (others : setting.others world next) (alone : setting.alone) :
    Steady world next := by
  rw [setting.still alone others]
  exact Steady.refl world

theorem steady_call (cloud : γ) (others : setting.others world next) (alone : setting.alone) :
    Steady world (next.called cloud) :=
  (steady_others others alone).trans (next.called_quiet cloud).steady

/-- What is done after other copies were kept is done after all. -/
theorem Setting.WorksOn.after {α : Type} {job : JobId} {program : Op γ α}
    (works : setting.WorksOn job program next) (keeps : setting.Keeps (some job) world next) :
    setting.Safe program (fun _ last => setting.Keeps (some job) world last) next :=
  works.weaken fun _ _ _ rest => keeps.trans rest

/-- A part that makes no transaction. -/
theorem worksOn_pure {α : Type} {job : JobId} {value : α} :
    setting.WorksOn job (pure value : Op γ α) world :=
  fun _ later _ => (keeps_others later).weaken

/-- The last move of a part. -/
theorem worksOn_transition {α : Type} {job : Job} {target : JobState} {change : Change}
    {value : Job → α} (asks : Asks setting world job target change) (copy : setting.Copy job world)
    (licence : Licence setting world job target change.reason) :
    setting.WorksOn job.jobId (transition job target change >>= fun job => pure (value job)) world :=
  Program.Safe.bind (safe_transition asks copy licence)
    fun _ _ _ moved _ later _ => moved.keeps.trans (keeps_others later).weaken

/-- A job is not active any more, as far as a process that is alone can tell. -/
def Idle (setting : Setting γ) (job : JobId) (world : World γ) : Prop :=
  setting.alone → ∃ row, world.db.jobs.find job = some row ∧ row.state.active = false

/-- A part of a pass that works on one job and leaves it without a machine. -/
abbrev Setting.Retires {α : Type} (setting : Setting γ) (job : JobId) (program : Op γ α)
    (world : World γ) : Prop :=
  setting.Safe program (fun _ next => setting.Keeps (some job) world next ∧ Idle setting job next)
    world

theorem Setting.Retires.works {α : Type} {job : JobId} {program : Op γ α}
    (retires : setting.Retires job program world) : setting.WorksOn job program world :=
  retires.weaken fun _ _ _ both => both.1

theorem Setting.Retires.after {α : Type} {job : JobId} {program : Op γ α}
    (retires : setting.Retires job program next) (keeps : setting.Keeps (some job) world next) :
    setting.Safe program
      (fun _ last => setting.Keeps (some job) world last ∧ Idle setting job last) next :=
  retires.weaken fun _ _ _ rest => ⟨keeps.trans rest.1, rest.2⟩

/-- The last move of a part that takes the machine of a job away. -/
theorem retires_transition {α : Type} {job : Job} {target : JobState} {change : Change}
    {value : Job → α} (asks : Asks setting world job target change) (copy : setting.Copy job world)
    (licence : Licence setting world job target change.reason) (gone : target.active = false) :
    setting.Retires job.jobId (transition job target change >>= fun job => pure (value job)) world := by
  refine Program.Safe.bind (safe_transition asks copy licence) fun moved next _ move final later _ => ?_
  refine ⟨move.keeps.trans (keeps_others later).weaken, fun alone => ?_⟩
  obtain ⟨row, found, same⟩ := ((keeps_others later).copy move.copy).2 alone
  rw [move.id] at found
  refine ⟨row, found, ?_⟩
  rw [essence_eq same Job.state fun _ => rfl, move.state]
  exact gone

/-- A part that starts by stopping a machine. -/
theorem retires_terminate {α : Type} {job : JobId} {backend : Backend γ} {handle why : String}
    {rest : Unit → Op γ α} (ends : setting.Ends backend)
    (resume : ∀ next, setting.Keeps none world next → (setting.alone → Steady world next) →
      setting.Retires job (rest ()) next) :
    setting.Retires job (externally (backend.terminate handle why) >>= rest) world := by
  refine safe_externally (fun cloud => ⟨_, ends.terminate handle why cloud⟩)
    (ends.stuck handle why) fun current _ others _ _ => ?_
  exact Setting.Retires.after (resume _ (keeps_call _ others) (steady_call _ others))
    (keeps_call _ others).weaken

/-- Stopping jobs and storing their output are among the transactions made. -/
structure Setting.Stops (setting : Setting γ) : Prop where
  moves : ∀ job target change now outstanding world, target.active = false →
    setting.makes (.move job target change now outstanding) world
  stores : ∀ job after polled kept now world,
    setting.makes (.touch job (.output after polled kept) now) world

theorem stops_free (free : ∀ write world, setting.makes write world) : setting.Stops :=
  ⟨fun _ _ _ _ _ _ _ => free _ _, fun _ _ _ _ _ _ => free _ _⟩

theorem Setting.Copy.usual {job : Job} (copy : setting.Copy job world) :
    job.state ≠ .checkpointing :=
  copy.1.usual

theorem started_of_active {job : Job} (active : job.state.active = true) : job.state ≠ .queued := by
  intro queued
  rw [queued] at active
  cases active

theorem inactive_gone {target : JobState} (gone : (target.terminal || target == .preempted) = true) :
    target.active = false := by
  revert gone
  cases target <;> decide

/-- A move that takes the capacity of an active job away. -/
theorem asks_stop {job : Job} {target : JobState} {change : Change}
    (stops : setting.Stops) (active : job.state.active = true)
    (permits : setting.Permits job target) (gone : (target.terminal || target == .preempted) = true)
    (plain : change.ledger = []) (clears : change.clearHandle = true)
    (unplaced : change.backendHandle = none) (unsited : change.backend = none) :
    Asks setting world job target change where
  permits := permits
  makes := fun _ _ => stops.moves _ _ _ _ _ _ (inactive_gone gone)
  usual := by
    rintro rfl
    cases gone
  plain := plain
  clears := clears.trans gone.symm
  places := by
    have waiting : (job.state == .queued) = false := by simpa using started_of_active active
    rw [unplaced, waiting]
    rfl
  sited := by rw [unplaced, unsited]
  named := by simp [unplaced]

/-- A job that is active may fail or complete. -/
theorem permits_done {job : Job} {target : JobState} (active : job.state.active = true)
    (done : target = .failed ∨ target = .completed) : setting.Permits job target := by
  refine Or.inl ?_
  revert active
  rcases done with rfl | rfl <;> cases job.state <;> decide

/-- A job that is active may be cancelled, since none is ever checkpointing. -/
theorem permits_cancelled {job : Job} (active : job.state.active = true)
    (usual : job.state ≠ .checkpointing) : setting.Permits job .cancelled := by
  refine Or.inl ?_
  revert active usual
  cases job.state <;> decide

/-! ### Running jobs -/

theorem safe_requeue {job : Job} {outcome : Outcome} (notes : setting.Notes) (stops : setting.Stops)
    (copy : setting.Copy job world) (preempted : job.state = .preempted) :
    setting.Retires job.jobId (requeue job outcome) world := by
  refine Program.Safe.bind (safe_appendLog notes copy.present) fun _ logged _ noted => ?_
  have legal : setting.Permits job .queued := Or.inl (by rw [preempted]; rfl)
  refine Setting.Retires.after (retires_transition ⟨legal, fun _ _ => stops.moves _ _ _ _ _ _ rfl,
    by decide, rfl, rfl, by rw [preempted]; rfl, rfl, by simp⟩ (noted.keeps.copy copy)
    (Licence.free (Or.inr (by decide)) fun _ _ => nofun) rfl) noted.keeps.weaken

theorem safe_collectCheckpoint {site : Site γ} {job : Job} (notes : setting.Notes)
    (latest : ∀ latest ∈ site.latest, ∀ job cloud,
      setting.outside.calls .other cloud (latest job cloud).2)
    (copy : setting.Copy job world) :
    setting.Safe (collectCheckpoint site job)
      (fun progressed next => Noted setting (some job.jobId) world next ∧
        Touched setting job world (progressed.getD job) next) world := by
  have nothing : ∀ {current : World γ}, Noted setting none world current →
      setting.Safe (pure none : Op γ (Option Job))
        (fun progressed next => Noted setting (some job.jobId) world next ∧
          Touched setting job world (progressed.getD job) next) current := by
    intro current had final later _
    have whole := had.trans (noted_others later)
    exact ⟨whole.weaken, rfl, rfl, rfl, rfl, whole.keeps.copy copy, whole.weaken⟩
  unfold collectCheckpoint
  split
  · exact nothing .refl
  · next look configured =>
    refine safe_external (fun cloud => ⟨.other, setting.rests, latest look configured _ cloud⟩)
      fun current others _ => ?_
    have called : Noted setting none world _ := ((looked_others others).trans
      (looked_called (latest look configured job.jobId current.cloud))).noted
    split
    · refine Program.Safe.bind (safe_appendLog notes (copy.present.persists called.keeps.1))
        fun _ logged _ noted => nothing (called.trans noted)
    · exact nothing called
    · split
      · exact nothing called
      · refine Program.Safe.bind (safe_recordCheckpoint (called.keeps.copy copy)
          fun _ => notes.touch _ _ _ _ trivial) fun saved last _ touched final later _ => ?_
        have whole : Noted setting (some job.jobId) world final :=
          (called.weaken.trans touched.noted).trans (noted_others later)
        exact ⟨whole, touched.id, touched.terms, touched.state, touched.handle,
          (keeps_others later).copy touched.copy, whole⟩

theorem Touched.active {job touched : Job} (touch : Touched setting job world touched next)
    (active : job.state.active = true) : touched.state.active = true := by
  rw [touch.state]
  exact active

theorem Touched.permits {job touched : Job} {target : JobState}
    (touch : Touched setting job world touched next) (permits : setting.Permits job target) :
    setting.Permits touched target := by
  unfold Setting.Permits
  rw [touch.id, touch.state]
  exact permits

theorem Touched.trans {one two three : Job} {last : World γ}
    (first : Touched setting one world two next) (second : Touched setting two next three last) :
    Touched setting one world three last := by
  have noted := second.noted
  rw [first.id] at noted
  exact ⟨second.id.trans first.id, second.terms.trans first.terms, second.state.trans first.state,
    second.handle.trans first.handle, second.copy, first.noted.trans noted⟩

theorem safe_preempt {site : Site γ} {job : Job} {backend : Backend γ} {observation : Observation}
    {outcome : Outcome} (notes : setting.Notes) (stops : setting.Stops)
    (latest : ∀ latest ∈ site.latest, ∀ job cloud,
      setting.outside.calls .other cloud (latest job cloud).2)
    (ends : setting.Ends backend) (copy : setting.Copy job world) (active : job.state.active = true)
    (permits : setting.Permits job .preempted) :
    setting.Retires job.jobId (preempt site job backend observation outcome) world := by
  refine retires_terminate ends fun called keeps _ => ?_
  refine Program.Safe.bind (safe_collectCheckpoint notes latest (keeps.copy copy))
    fun progressed saved _ collected => ?_
  refine Program.Safe.bind (safe_recordPreemption collected.2.copy
    fun _ => notes.touch _ _ _ _ trivial) fun counted touched _ count => ?_
  have whole := collected.2.trans count
  refine Program.Safe.bind (safe_transition (asks_stop stops (whole.active active)
    (whole.permits permits) rfl rfl rfl rfl rfl) whole.copy
    (Licence.free (Or.inr (by decide)) fun _ _ => nofun)) fun preempted moved _ gone => ?_
  have same : preempted.jobId = job.jobId := gone.id.trans whole.id
  have lost : setting.Keeps (some job.jobId) called moved := by
    have kept := gone.keeps
    rw [whole.id] at kept
    exact whole.noted.keeps.trans kept
  have back : ∀ {other : Job} {now : World γ}, other.jobId = job.jobId →
      other.state = .preempted → setting.Copy other now →
      setting.Keeps (some job.jobId) moved now →
      setting.Safe (requeue other outcome) (fun _ next =>
        setting.Keeps (some job.jobId) called next ∧ Idle setting job.jobId next) now := by
    intro other now id state copy kept
    have requeued : setting.Retires other.jobId (requeue other outcome) now :=
      safe_requeue notes stops copy state
    rw [Setting.Retires, id] at requeued
    exact Setting.Retires.after requeued (lost.trans kept)
  refine safe_settings fun configured others booked => ?_
  have keptCopy := (keeps_others others).copy gone.copy
  have state := gone.state
  split
  · refine safe_orRaise (keptCopy.1.typed booked).raises fun gpu _ => ?_
    simp only
    split
    · refine Program.Safe.bind (safe_appendLog notes keptCopy.present) fun _ logged _ noted => ?_
      exact back same state (noted.keeps.copy keptCopy) ((keeps_others others).trans noted.keeps).weaken
    · refine Program.Safe.bind (safe_pinTier keptCopy fun _ => notes.touch _ _ _ _ trivial)
        fun pinned last _ pin => ?_
      refine Program.Safe.bind (safe_notify notes pin.copy.present) fun _ told _ noted => ?_
      have kept : setting.Keeps (some job.jobId) configured told := by
        have first := pin.noted.keeps
        rw [same] at first
        exact first.trans noted.keeps.weaken
      exact back (pin.id.trans same) (pin.state.trans state) (noted.keeps.copy pin.copy)
        ((keeps_others others).weaken.trans kept)
  · exact back same state keptCopy (keeps_others others).weaken

theorem safe_startCommand {job : Job} {backend : Backend γ} {handle : String} {outcome : Outcome}
    (notes : setting.Notes) (stops : setting.Stops)
    (ends : setting.Ends backend) (watches : setting.Watches backend)
    (copy : setting.Copy job world) (active : job.state.active = true) :
    setting.WorksOn job.jobId (startCommand job backend handle outcome) world := by
  refine safe_external (fun cloud => ⟨.other, setting.rests, watches.start handle job cloud⟩)
    fun current others _ => ?_
  have keeps := keeps_call (backend.start handle job current.cloud).2 others
  split
  · refine Program.Safe.bind (safe_appendLog notes (keeps.copy copy).present)
      fun _ logged _ noted final later _ => ?_
    exact ((keeps.trans noted.keeps).trans (keeps_others later)).weaken
  · refine Program.Safe.bind (safe_appendLog notes (keeps.copy copy).present)
      fun _ logged _ noted => ?_
    have whole := keeps.trans noted.keeps
    refine Setting.WorksOn.after (Setting.Retires.works (retires_terminate ends fun called kept _ => ?_))
      whole.weaken
    exact retires_transition (asks_stop stops active (permits_done active (Or.inl rfl)) rfl rfl rfl
      rfl rfl) (kept.copy (whole.copy copy)) (Licence.free (Or.inr (by decide)) fun _ _ => nofun) rfl

/-- The machine a copy names: the backend it is drained from is its own. -/
structure Placed (backend : Backend γ) (handle : String) (job : Job) : Prop where
  handle : job.backendHandle = some handle
  backend : backend.name = job.backend.getD ""

theorem safe_stopRequested {job : Job} {backend : Backend γ} {handle actor : String}
    {outcome : Outcome} (notes : setting.Notes) (stops : setting.Stops)
    (ends : setting.Ends backend) (watches : setting.Watches backend)
    (copy : setting.Copy job world) (active : job.state.active = true)
    (placed : Placed backend handle job) :
    setting.Retires job.jobId (stopRequested job backend handle actor outcome) world := by
  refine retires_terminate ends fun called keeps _ => ?_
  refine Program.Safe.bind (safe_drainLogs notes (stops.stores _) watches (keeps.copy copy) active placed.handle
    placed.backend) fun drained last _ drain => ?_
  have touch := drain.1
  let change : Change := { reason := .cancelledBy actor, clearHandle := true }
  have retires : setting.Retires drained.jobId (transition drained .cancelled change >>= fun job =>
      pure { outcome with finalState := some job.state }) last := retires_transition
    (asks_stop stops (touch.active active)
      (touch.permits (permits_cancelled active copy.usual)) rfl rfl rfl rfl rfl) touch.copy
    (Licence.free (Or.inr (by decide)) fun _ _ => nofun) rfl
  rw [Setting.Retires, touch.id] at retires
  exact Setting.Retires.after retires touch.noted.keeps

theorem safe_finish {job : Job} {backend : Backend γ} {handle : String} {target : JobState}
    {observation : Observation} {outcome : Outcome} (stops : setting.Stops)
    (ends : setting.Ends backend) (copy : setting.Copy job world) (active : job.state.active = true)
    (done : target = .failed ∨ target = .completed) :
    setting.Retires job.jobId (finish job backend handle target observation outcome) world := by
  refine retires_terminate ends fun called keeps _ => ?_
  have gone : (target.terminal || target == .preempted) = true := by
    rcases done with rfl | rfl <;> rfl
  exact retires_transition (asks_stop stops active (permits_done active done) gone rfl rfl rfl rfl)
    (keeps.copy copy) (Licence.free (Or.inl (started_of_active active)) fun _ _ => nofun)
    (inactive_gone gone)

theorem safe_stopAtCeiling {config : BrokerConfig} {job : Job} {now : Time} {backend : Backend γ}
    {handle : String} {outcome : Outcome} (notes : setting.Notes)
    (stops : setting.Stops) (ends : setting.Ends backend)
    (watches : setting.Watches backend) (copy : setting.Copy job world)
    (active : job.state.active = true) (placed : Placed backend handle job)
    (reached : setting.alone → Reached world job) :
    setting.Retires job.jobId (stopAtCeiling config job now backend handle outcome) world := by
  refine retires_terminate ends fun called keeps steady => ?_
  refine Program.Safe.bind (safe_drainLogs notes (stops.stores _) watches (keeps.copy copy) active placed.handle
    placed.backend) fun drained last _ drain => ?_
  have touch := drain.1
  have still : setting.alone → Reached last drained := fun alone => by
    obtain ⟨gpu, found, moment, shown, high⟩ :=
      (reached alone).steady ((steady alone).trans (touch.noted.steady alone))
    have same : ∀ {β : Type} (column : Job → β), (∀ job, column job.essence = column job) →
        (∀ job : Job, column { job.essence with logsFetched := drained.logsFetched } =
          column job.essence) → column drained = column job := fun column blind unread => by
      rw [← blind drained, drain.2.2, unread, blind]
    have kind : drained.gpuType = job.gpuType := same Job.gpuType (fun _ => rfl) fun _ => rfl
    have reserved : drained.reserved = job.reserved := same Job.reserved (fun _ => rfl) fun _ => rfl
    have started : drained.startedAt = job.startedAt := same Job.startedAt (fun _ => rfl) fun _ => rfl
    have finished : drained.finishedAt = job.finishedAt :=
      same Job.finishedAt (fun _ => rfl) fun _ => rfl
    refine ⟨gpu, kind ▸ found, moment, shown, ?_⟩
    unfold atCeiling Job.elapsedHours at high ⊢
    rw [reserved, started, finished]
    exact high
  let change : Change :=
    { reason := .ceiling drained.reserved (drained.elapsedHours config.calendar now)
      clearHandle := true }
  have retires : setting.Retires drained.jobId (transition drained .failed change >>= fun _ =>
      pure { outcome with hitCeiling := true, finalState := some .failed }) last := retires_transition
    (asks_stop stops (touch.active active) (touch.permits (permits_done active (Or.inl rfl)))
      rfl rfl rfl rfl rfl) touch.copy
    ⟨fun _ _ => nofun, fun alone _ _ _ => ⟨touch.active active, still alone⟩⟩ rfl
  rw [Setting.Retires, touch.id] at retires
  exact Setting.Retires.after retires touch.noted.keeps

theorem safe_follow {job : Job} {target : JobState} {backend : Backend γ}
    {observation : Observation} {outcome : Outcome} (notes : setting.Notes)
    (free : ∀ write world, setting.makes write world) (copy : setting.Copy job world)
    (active : job.state.active = true) (up : target = .allocating ∨ target = .running) :
    setting.WorksOn job.jobId (follow job target backend observation outcome) world := by
  unfold follow
  simp only
  have live : ∀ target' : JobState, target' = (if target = .allocating && job.resumable &&
      job.state = .allocating then .resuming else target) →
      target' = .allocating ∨ target' = .running ∨ target' = .resuming := by
    rintro _ rfl
    split
    · exact Or.inr (Or.inr rfl)
    · exact up.imp id Or.inl
  generalize (if target = .allocating && job.resumable && job.state = .allocating then
    JobState.resuming else target) = target at live
  replace live := live target rfl
  split
  · exact worksOn_pure
  · split
    · next legal =>
      refine worksOn_transition ⟨Or.inl legal, fun _ _ => free _ _, ?_, rfl, ?_, ?_, rfl, by simp⟩ copy
        (Licence.free (Or.inl (started_of_active active)) fun _ _ => nofun)
      · rcases live with rfl | rfl | rfl <;> decide
      · rcases live with rfl | rfl | rfl <;> rfl
      · have waiting : (job.state == .queued) = false := by simpa using started_of_active active
        rw [waiting]
        rfl
    · refine Program.Safe.bind (safe_appendLog notes copy.present) fun _ logged _ noted final later _ => ?_
      exact (noted.keeps.trans (keeps_others later)).weaken

/-- What a poll of the job's machine may answer, seen from a state. -/
structure Polled (setting : Setting γ) (world : World γ) (backend : Backend γ) (handle : String)
    (observation : Observation) : Prop where
  answer : ∃ cloud, (setting.alone → cloud = world.cloud) ∧
    (backend.poll handle cloud).1 = .ok observation

theorem safe_observe {site : Site γ} {job : Job} {now : Time} {backend : Backend γ}
    {handle : String} {outcome : Outcome} (runs : setting.Runs site) (notes : setting.Notes)
    (free : ∀ write world, setting.makes write world) (ends : setting.Ends backend)
    (watches : setting.Watches backend) (copy : setting.Copy job world)
    (active : job.state.active = true) (placed : Placed backend handle job)
    (shown : world.Shown now)
    (permits : ∀ observation, Polled setting world backend handle observation →
      observation.status = .interrupted → setting.Permits job .preempted) :
    setting.WorksOn job.jobId (observe site job now backend handle outcome) world := by
  refine safe_externally (fun cloud => ⟨.other, setting.rests, watches.poll handle cloud⟩)
    (watches.blind handle) fun current observation others _ answer => ?_
  have polled : Polled setting world backend handle observation :=
    ⟨current.cloud, fun alone => by rw [setting.still alone others], answer⟩
  have looked := (looked_others others).trans
    (looked_called (watches.poll handle current.cloud))
  refine Program.Safe.bind (safe_drainLogs notes ((stops_free free).stores _) watches
    (looked.keeps.copy copy) active
    placed.handle placed.backend) fun drained last _ drain => ?_
  have touch := drain.1
  refine Program.Safe.bind (safe_sample notes watches touch.copy) fun _ sampled _ noted => ?_
  have copyHere := noted.keeps.copy touch.copy
  have activeHere := touch.active active
  have placedHere : Placed backend handle drained :=
    ⟨touch.handle.trans placed.handle, by rw [drain.2.1]; exact placed.backend⟩
  have keeps : setting.Keeps (some drained.jobId) world sampled := by
    rw [touch.id]
    exact (looked.keeps.weaken.trans touch.noted.keeps).trans noted.keeps.weaken
  rw [← touch.id]
  split
  · exact Setting.WorksOn.after (safe_startCommand notes (stops_free free) ends watches copyHere
      activeHere) keeps
  · simp only
    split
    · next lost =>
      have interrupted : observation.status = .interrupted := by
        revert lost
        cases observation.status <;> simp [stateFor]
      exact Setting.WorksOn.after (safe_preempt notes (stops_free free) runs.latest ends copyHere
        activeHere (touch.permits (permits observation polled interrupted))).works keeps
    · split
      · next alive concluded =>
        have done : stateFor observation.status = .failed ∨
            stateFor observation.status = .completed := by
          revert concluded
          cases observation.status <;> simp [stateFor, JobState.terminal]
        exact Setting.WorksOn.after (safe_finish (stops_free free) ends copyHere activeHere done).works
          keeps
      · next alive up =>
        refine safe_settings fun configured later booked => ?_
        have copyNow := (keeps_others later).copy copyHere
        have keepsNow := keeps.trans (keeps_others later).weaken
        refine safe_orRaise (copyNow.1.typed booked).raises fun gpu found => ?_
        split
        · next high =>
          exact Setting.WorksOn.after (safe_stopAtCeiling notes (stops_free free) ends watches copyNow
            activeHere placedHere fun _ => ⟨gpu, found, now, keepsNow.1.shown shown, high⟩).works
            keepsNow
        · have target : stateFor observation.status = .allocating ∨
              stateFor observation.status = .running := by
            revert alive up
            cases observation.status <;> simp [stateFor, JobState.terminal]
          exact Setting.WorksOn.after (safe_follow notes free copyNow activeHere target) keepsNow

/-- One look at a running job keeps the copies of the others. -/
theorem safe_advance {site : Site γ} {job : Job} {now : Time} (runs : setting.Runs site)
    (notes : setting.Notes) (free : ∀ write world, setting.makes write world)
    (sole : setting.Sole) (copy : setting.Copy job world) (active : job.state.active = true)
    (shown : world.Shown now)
    (permits : ∀ backend handle observation, site.backend (job.backend.getD "") = some backend →
      job.backendHandle = some handle → Polled setting world backend handle observation →
      observation.status = .interrupted → setting.Permits job .preempted) :
    setting.WorksOn job.jobId (advance site job now) world := by
  unfold advance
  split
  · next backend handle found placed =>
    obtain ⟨member, name⟩ := Site.backend_mem found
    have ends := runs.ends backend member
    have watches := runs.watches backend member
    refine Program.Safe.bind (safe_settleAccrued sole copy active shown fun _ _ => free _ _)
      fun settled current _ kept => ?_
    have copyHere := kept.1.copy copy
    simp only
    split
    · exact Setting.WorksOn.after (safe_stopRequested notes (stops_free free) ends watches copyHere
        active ⟨placed, name⟩).works kept.1.weaken
    · refine Setting.WorksOn.after (safe_observe runs notes free ends watches copyHere active
        ⟨placed, name⟩ (kept.1.1.shown shown) fun observation polled interrupted => ?_) kept.1.weaken
      obtain ⟨cloud, same, answer⟩ := polled.answer
      refine permits backend handle observation found placed ⟨cloud, fun alone => ?_, answer⟩
        interrupted
      rw [same alone, kept.2 alone]
  · exact worksOn_pure

/-! ### Lists of copies -/

/-- Copies of distinct jobs, all good and in a state of a kind. -/
structure Setting.Copies (setting : Setting γ) (which : JobState → Bool) (jobs : List Job)
    (world : World γ) : Prop where
  distinct : (jobs.map Job.jobId).Nodup
  copy : ∀ job ∈ jobs, setting.Copy job world
  state : ∀ job ∈ jobs, which job.state = true

theorem Setting.Copies.keeps {which : JobState → Bool} {jobs : List Job}
    (copies : setting.Copies which jobs world) (keeps : setting.Keeps none world next) :
    setting.Copies which jobs next :=
  ⟨copies.distinct, fun job member => keeps.2 job (by simp) (copies.copy job member), copies.state⟩

/-- Working on the first job of a list keeps the copies of the rest. -/
theorem Setting.Copies.tail {which : JobState → Bool} {job : Job} {jobs : List Job}
    (copies : setting.Copies which (job :: jobs) world)
    (keeps : setting.Keeps (some job.jobId) world next) : setting.Copies which jobs next := by
  have distinct := List.nodup_cons.mp copies.distinct
  refine ⟨distinct.2, fun other member => keeps.2 other (fun same => distinct.1 ?_)
    (copies.copy other (List.mem_cons_of_mem _ member)), fun other member =>
      copies.state other (List.mem_cons_of_mem _ member)⟩
  rw [Option.some.inj same]
  exact List.mem_map_of_mem member

/-- The rows a query lists are good copies of distinct jobs. -/
theorem copies_listJobs {which : JobState → Bool} (booked : Booked world) :
    setting.Copies which (world.db.listJobs fun job => which job.state) world := by
  have permuted : (world.db.listJobs fun job => which job.state).Perm
      (world.db.jobs.rows.filter fun job => which job.state) := world.db.listJobs_perm _
  refine ⟨(permuted.map _).nodup_iff.mpr
    (world.db.jobs.distinct.sublist ((List.filter_sublist).map _)), fun job member => ?_,
    fun job member => (List.mem_filter.mp (permuted.mem_iff.mp member)).2⟩
  exact copy_of_find booked
    (Table.find_of_mem (List.mem_filter.mp (permuted.mem_iff.mp member)).1)

theorem Setting.Copies.perm {which : JobState → Bool} {jobs others : List Job}
    (copies : setting.Copies which jobs world) (permuted : others.Perm jobs) :
    setting.Copies which others world :=
  ⟨(permuted.map _).nodup_iff.mpr copies.distinct, fun job member =>
    copies.copy job (permuted.mem_iff.mp member), fun job member =>
      copies.state job (permuted.mem_iff.mp member)⟩

/-! ### The queue -/

theorem Room.weaken {currency : Currency} {amount less : Decimal} (room : Room world currency amount)
    (below : less ≤ amount) : Room world currency less := by
  obtain ⟨reading, before, stamped, fits⟩ := room
  exact ⟨reading, before, stamped, by linarith⟩

theorem Looked.room {currency : Currency} {amount : Decimal} (looked : Looked setting world next)
    (room : setting.alone → Room world currency amount) :
    setting.alone → Room next currency amount :=
  fun alone => (room alone).steady (looked.quiet alone).steady

/-- What a job has settled is not negative. -/
theorem Booked.settled_nonneg (booked : Booked world) (id : JobId) :
    0 ≤ settled world.db.ledger id := by
  refine List.sum_nonneg fun part member => ?_
  obtain ⟨row, selected, rfl⟩ := List.mem_map.mp member
  have positive := booked.positive row (List.mem_filter.mp selected).1
  unfold LedgerEntry.settledPart
  cases row.kind <;> first | exact le_rfl | exact positive.le

/-- The reservation of a job that is not refused is not negative. -/
theorem Booked.reserved_nonneg (booked : Booked world) {job : Job} {id : JobId}
    (found : world.db.jobs.find id = some job) (admitted : job.state ≠ .refused) :
    0 ≤ job.reserved :=
  (booked.settled_nonneg job.jobId).trans ((booked.jobs id job found).within admitted)

/-- A job that holds budget holds at most its reservation. -/
theorem Booked.holding_le (booked : Booked world) {job : Job} {id : JobId}
    (found : world.db.jobs.find id = some job) (live : job.state.terminal = false) :
    world.db.jobHolding id job.currency ≤ job.reserved := by
  have same := Table.find_key found
  rw [jobHolding_eq, ← same, (booked.jobs id job found).held live]
  have nonneg := booked.settled_nonneg job.jobId
  linarith

/-- Starting a queued job takes at most its reservation from what the active jobs may hold. -/
theorem activeHolds_started {db : Db} {current updated row : Job} (booked : Booked world)
    (found : world.db.jobs.find current.jobId = some row) (terms : row.terms = current.terms)
    (queued : row.state = .queued) (ledger : db.ledger = world.db.ledger)
    (jobs : db.jobs = world.db.jobs.modify current.jobId updated.writtenOver updated.writtenOver_id)
    (currency : Currency) :
    db.activeHolds currency ≤
      world.db.activeHolds currency + if currency = current.currency then current.reserved else 0 := by
  have reserved : row.reserved = current.reserved := congrArg Terms.reserved terms
  have owed : row.currency = current.currency := congrArg Terms.currency terms
  have id := Table.find_key found
  have nonneg := booked.reserved_nonneg found (by rw [queued]; decide)
  have held := booked.holding_le found (by rw [queued]; rfl)
  rw [reserved] at nonneg held
  rw [owed] at held
  have sameHolding : ∀ id, db.jobHolding id currency = world.db.jobHolding id currency :=
    fun id => by rw [Db.jobHolding, ledger, Db.jobHolding]
  have waiting : ¬ (row.state.active = true ∧ row.currency = currency) := by
    rw [queued]
    exact fun both => Bool.false_ne_true both.1
  have started : (if (updated.writtenOver row).state.active = true ∧
      (updated.writtenOver row).currency = currency
      then world.db.jobHolding (updated.writtenOver row).jobId currency else 0) ≤
      if currency = current.currency then current.reserved else 0 := by
    show (if updated.state.active = true ∧ row.currency = currency
      then world.db.jobHolding row.jobId currency else 0) ≤ _
    rw [owed, id]
    by_cases mine : currency = current.currency
    · rw [if_pos mine, mine]
      split
      · exact held
      · exact nonneg
    · rw [if_neg mine, if_neg fun both => mine both.2.symm]
  unfold Db.activeHolds
  rw [jobs, Table.total_modify found]
  simp only [sameHolding]
  rw [if_neg waiting]
  linarith

/-- Starting a queued job takes at most its reservation from the room in the pool. -/
theorem room_started {current : Job} {change : Change} {now : Time} {outstanding : Option Cents}
    {currency : Currency} {amount : Decimal} (booked : Booked world)
    (moving : Moving world current .allocating change now outstanding)
    (queued : current.state = .queued)
    (applied : (Write.move current .allocating change now outstanding).apply world = .ok next)
    (room : Room world currency amount) :
    Room next currency
      (amount - if currency = current.currency then money current.reserved else 0) := by
  obtain ⟨db, written, rfl⟩ := Write.apply_eq applied
  obtain ⟨row, found, state, same⟩ := Db.moveJob_eq written
  obtain ⟨again, hasRow, terms⟩ := moving.known.row
  rw [found] at hasRow
  cases hasRow
  have unread : outstanding = none := by
    have release := moving.release
    rwa [← Option.not_isSome_iff_eq_none, Bool.not_eq_true]
  have ledger : db.ledger = world.db.ledger := by
    rw [same, unread, Change.writes, moving.plain]
    exact List.append_nil _
  have jobs : db.jobs = world.db.jobs.modify current.jobId
      (current.movedTo .allocating change now).writtenOver (Job.writtenOver_id _) := by
    rw [same]
  obtain ⟨reading, before, stamped, fits⟩ := room
  refine ⟨reading, before, ?_, ?_⟩
  · show ∀ line ∈ db.ledger, _
    rw [ledger]
    exact stamped
  · show money (db.poolSpent currency _ + db.activeHolds currency) + _ ≤ world.config.poolBudget currency
    have grown := money_le_money.mpr
      (activeHolds_started booked found terms (state.trans queued) ledger jobs currency)
    have charge : money (if currency = current.currency then current.reserved else 0) =
        if currency = current.currency then money current.reserved else 0 := by
      split <;> simp
    rw [money_add, charge] at grown
    rw [money_add] at fits
    rw [money_add, poolSpent_ledger ledger]
    show money (world.db.poolSpent currency (world.config.calendar.period (world.clock reading))) + _ +
      _ ≤ _
    linarith

/-- What is carried through the pass over the queue, beside the room in the pool: `kept` between two
decisions, `owed` while a machine that was launched is not yet in the books. -/
structure Setting.Carries (setting : Setting γ) (site : Site γ) (kept : World γ → Prop)
    (owed : String → String → World γ → Prop) : Prop where
  noted : ∀ {job world next}, Noted setting job world next → kept world → kept next
  waits : ∀ {job world next backend handle}, Noted setting job world next →
    owed backend handle world → owed backend handle next
  launched : ∀ {job allocation} {backend : Backend γ} {world : World γ}, backend ∈ site.backends →
    (backend.launch job world.cloud).1 = .ok allocation → kept world →
    owed backend.name allocation.handle (world.called (backend.launch job world.cloud).2)
  placed : ∀ {current change moment outstanding backend handle} {before after : World γ},
    Booked before → Moving before current .allocating change moment outstanding →
    change.backend = some backend → change.backendHandle = some handle →
    (Write.move current .allocating change moment outstanding).apply before = .ok after →
    owed backend handle before → kept after

theorem Setting.Carries.looked {site : Site γ} {kept : World γ → Prop}
    {owed : String → String → World γ → Prop} (carries : setting.Carries site kept owed)
    (looked : Looked setting world next) (carried : kept world) : kept next := by
  have noted : Noted setting none world next := looked.noted
  exact carries.noted noted carried

/-- Nothing need be carried. -/
theorem carries_nothing {site : Site γ} :
    setting.Carries site (fun _ => True) fun _ _ _ => True :=
  ⟨fun _ _ => trivial, fun _ _ => trivial, fun _ _ _ => trivial, fun _ _ _ _ _ _ => trivial⟩

/-- Starting queued jobs is among the moves made. -/
def Setting.Begins (setting : Setting γ) : Prop :=
  ∀ job change now outstanding world, job.state = .queued →
    setting.makes (.move job .allocating change now outstanding) world

/-- A queued job takes at most its reservation from the room in the pool. -/
def Spends (setting : Setting γ) (job : Job) (world next : World γ) : Prop :=
  setting.alone → ∀ currency amount, Room world currency amount →
    Room next currency (amount - if currency = job.currency then money job.reserved else 0)

theorem Spends.after {job : Job} {middle : World γ} (spends : Spends setting job middle next)
    (steady : setting.alone → Steady world middle) : Spends setting job world next :=
  fun alone currency amount had => spends alone currency amount (had.steady (steady alone))

theorem Spends.before {job : Job} {middle : World γ} (spends : Spends setting job world middle)
    (steady : setting.alone → Steady middle next) : Spends setting job world next :=
  fun alone currency amount had => (spends alone currency amount had).steady (steady alone)

/-- A job that was not started takes nothing. -/
theorem spends_nothing {job : Job} (booked : Booked world) (queued : job.state = .queued) (inStep : setting.alone → InStep world job)
    (steady : setting.alone → Steady world next) : Spends setting job world next := by
  intro alone currency amount had
  obtain ⟨row, found, same⟩ := inStep alone
  have reserved : row.reserved = job.reserved := essence_eq same Job.reserved fun _ => rfl
  have state : row.state = job.state := essence_eq same Job.state fun _ => rfl
  have nonneg := booked.reserved_nonneg found (by rw [state, queued]; decide)
  rw [reserved] at nonneg
  refine (had.steady (steady alone)).weaken ?_
  split
  · exact sub_le_self _ (money_nonneg.mpr nonneg)
  · exact (sub_zero amount).le

/-- Moving a queued job to `ALLOCATING` spends at most its reservation. -/
theorem Moved.spends {current updated : Job} {change : Change}
    (moved : Moved setting current .allocating change world updated next)
    (queued : current.state = .queued) : Spends setting current world next := by
  intro alone currency amount had
  obtain ⟨moment, _, before, after, outstanding, looked, booked, moving, applied, others⟩ :=
    moved.record
  rw [setting.still alone others]
  exact room_started booked moving queued applied (had.steady (looked.quiet alone).steady)

/-- What takes the decisions of a pass: a blocked job is only noted, and a job that is dispatched
takes at most its reservation from the room in the pool. -/
structure Consumes {α : Type} (setting : Setting γ) (site : Site γ) (kept : World γ → Prop)
    (consume : α → Job → Action → Option (Placement γ) → Op γ α) : Prop where
  passed : ∀ report job action placement world, Known world job → action ≠ .dispatch →
    setting.Safe (consume report job action placement) (fun _ next => Looked setting world next)
      world
  dispatched : ∀ report job placement world, placement.backend ∈ site.backends → Booked world →
    kept world → setting.Copy job world → job.state = .queued →
    (setting.alone → Room world job.currency (money job.reserved)) →
    setting.Safe (consume report job .dispatch (some placement))
      (fun _ next => setting.Keeps (some job.jobId) world next ∧ Spends setting job world next ∧
        kept next) world

/-- Launching a job takes at most its reservation from the room in the pool. -/
theorem safe_launch {site : Site γ} {kept : World γ → Prop} {owed : String → String → World γ → Prop}
    {report : TickReport} {job : Job} {placement : Placement γ} (notes : setting.Notes)
    (begins : setting.Begins) (starts : setting.Starts placement.backend)
    (carries : setting.Carries site kept owed) (member : placement.backend ∈ site.backends)
    (booked : Booked world) (carried : kept world) (copy : setting.Copy job world)
    (queued : job.state = .queued)
    (room : setting.alone → Room world job.currency (money job.reserved)) :
    setting.Safe (launch report job placement)
      (fun _ next => setting.Keeps (some job.jobId) world next ∧ Spends setting job world next ∧
        kept next) world := by
  have serves : ∀ cloud, ∃ kind, setting.issues kind ∧
      setting.outside.calls kind cloud (placement.backend.launch job cloud).2 := by
    intro cloud
    cases answer : (placement.backend.launch job cloud).1 with
    | error detail => exact ⟨.other, setting.rests, starts.refused job cloud detail answer⟩
    | ok allocation =>
        obtain ⟨issues, calls, _⟩ := starts.launched job cloud allocation answer
        exact ⟨_, issues, calls⟩
  refine safe_external serves fun current others bookedHere => ?_
  have keeps := keeps_call (placement.backend.launch job current.cloud).2 others
  have steady := steady_call (placement.backend.launch job current.cloud).2 others
  have copyHere := keeps.copy copy
  cases answer : (placement.backend.launch job current.cloud).1 with
  | error detail =>
      have looked := (looked_others others).trans
        (looked_called (starts.refused job current.cloud detail answer))
      refine Program.Safe.bind (safe_appendLog notes copyHere.present)
        fun _ logged _ noted final later _ => ?_
      have whole := looked.noted.trans (noted.trans (noted_others later))
      exact ⟨whole.keeps.weaken, spends_nothing booked queued copy.2 whole.steady,
        carries.noted whole carried⟩
  | ok allocation =>
      have owing := carries.launched member answer (carries.looked (looked_others others) carried)
      refine Program.Safe.bind (safe_recordAttempt copyHere fun _ => notes.touch _ _ _ _ trivial)
        fun counted touched _ touch => ?_
      have reserved : counted.reserved = job.reserved := congrArg Terms.reserved touch.terms
      have owed : counted.currency = job.currency := congrArg Terms.currency touch.terms
      have waiting : counted.state = .queued := touch.state.trans queued
      have still : setting.alone → Steady world touched := fun alone =>
        (steady alone).trans (touch.noted.steady alone)
      have handles := (starts.launched job current.cloud allocation answer).2.2
      refine Program.Safe.bind (safe_transition ⟨Or.inl (by rw [waiting]; rfl),
        fun _ _ => begins _ _ _ _ _ waiting, by decide, rfl, rfl, by rw [waiting]; rfl, rfl,
        fun handle same => Option.some.inj same ▸ handles⟩ touch.copy
        ⟨fun alone _ _ => ?_, fun _ _ _ => nofun⟩) fun moved after _ move => ?_
      · rw [reserved, owed]
        exact (room alone).steady (still alone)
      · have spent := (move.spends waiting).after still
        have whole : setting.Keeps (some job.jobId) world after :=
          (keeps.weaken.trans touch.noted.keeps).trans (touch.id ▸ move.keeps)
        have placed : kept after := by
          obtain ⟨moment, _, before, written, outstanding, looked, kept, moving, applied, others⟩ :=
            move.record
          have waiting := carries.waits touch.noted owing
          have still : Noted setting none touched before := looked.noted
          exact carries.looked (looked_others others)
            (carries.placed kept moving rfl rfl applied (carries.waits still waiting))
        have present : Present after counted.jobId := move.id ▸ move.copy.present
        refine Program.Safe.bind (safe_appendLog notes present) fun _ one _ first => ?_
        refine Program.Safe.bind (safe_appendLog notes (present.persists first.keeps.1))
          fun _ two _ second final later _ => ?_
        have noted := (first.trans second).trans (noted_others later)
        refine ⟨whole.trans noted.keeps.weaken, ?_, carries.noted noted placed⟩
        intro alone currency amount had
        have had := (spent alone currency amount had).steady (noted.steady alone)
        rw [reserved, owed] at had
        exact had

theorem consumes_dispatchOne {site : Site γ} {kept : World γ → Prop}
    {owed : String → String → World γ → Prop} (notes : setting.Notes) (begins : setting.Begins)
    (starts : ∀ backend ∈ site.backends, setting.Starts backend)
    (carries : setting.Carries site kept owed) :
    Consumes setting site kept (dispatchOne : TickReport → Job → Action → Option (Placement γ) → Op γ TickReport) := by
  constructor
  · intro report job action placement world known blocked
    refine safe_settings fun configured others booked => ?_
    refine safe_orRaise (((setting.persists others).known known).typed booked).raises fun gpu _ => ?_
    have noted : ∀ report : TickReport, setting.Safe (pure report : Op γ TickReport)
        (fun _ next => Looked setting world next) configured := fun report final later _ =>
      (looked_others others).trans (looked_others later)
    cases action with
    | dispatch => exact absurd rfl blocked
    | blockedPool | blockedCapacity | blockedTenant | blockedUnauthorized => exact noted _
  · intro report job placement world member booked carried copy queued room
    refine safe_settings fun configured others bookedHere => ?_
    refine safe_orRaise (((setting.persists others).known copy.1).typed bookedHere).raises
      fun gpu _ => ?_
    have steady := steady_others others
    refine Program.Safe.weaken (safe_launch notes begins (starts _ member) carries member bookedHere
      (carries.looked (looked_others others) carried) ((keeps_others others).copy copy)
      queued fun alone => (room alone).steady (steady alone)) fun _ next _ launched => ?_
    exact ⟨(keeps_others others).weaken.trans launched.1, launched.2.1.after steady, launched.2.2⟩

theorem safe_firstFree {currency : Currency} {gpuType : String} {backends : List (Backend γ)}
    {skipped : List (String × String)}
    (starts : ∀ backend ∈ backends, setting.Starts backend) :
    setting.Safe (firstFree currency gpuType backends skipped)
      (fun chosen next => Looked setting world next ∧
        ∀ placement ∈ chosen, placement.backend ∈ backends) world := by
  induction backends generalizing world skipped with
  | nil => exact fun final later _ => ⟨looked_others later, by simp⟩
  | cons backend backends inductionHypothesis =>
      have onward : ∀ {current : World γ} {skipped}, Looked setting world current →
          setting.Safe (firstFree currency gpuType backends skipped)
            (fun chosen next => Looked setting world next ∧
              ∀ placement ∈ chosen, placement.backend ∈ backend :: backends) current := by
        intro current skipped looked
        refine Program.Safe.weaken (inductionHypothesis fun other member =>
          starts other (List.mem_cons_of_mem _ member)) fun chosen _ _ rest => ?_
        exact ⟨looked.trans rest.1, fun placement member =>
          List.mem_cons_of_mem _ (rest.2 placement member)⟩
      have mine := starts backend List.mem_cons_self
      unfold firstFree
      simp only
      split
      · exact onward (looked_others (setting.refl world))
      · split
        · exact onward (looked_others (setting.refl world))
        · refine safe_externally (fun cloud => ⟨.other, setting.rests, mine.freeSlots gpuType cloud⟩)
            (mine.full gpuType) fun current free others _ _ => ?_
          have looked := (looked_others others).trans
            (looked_called (mine.freeSlots gpuType current.cloud))
          split
          · exact onward looked
          · refine fun final later _ => ⟨looked.trans (looked_others later), fun placement same => ?_⟩
            cases same
            exact List.mem_cons_self

theorem safe_choose {site : Site γ} {job : Job} (known : Known world job)
    (starts : ∀ backend ∈ site.backends, setting.Starts backend) :
    setting.Safe (choose site job)
      (fun chosen next => Looked setting world next ∧
        ∀ placement ∈ chosen, placement.backend ∈ site.backends) world := by
  have listed : ∀ {tiers : List String} {backend : Backend γ},
      backend ∈ tiers.flatMap (fun tier =>
        site.backends.filter fun backend => backend.tierOf = tier) → backend ∈ site.backends := by
    intro tiers backend member
    obtain ⟨tier, _, filtered⟩ := List.mem_flatMap.mp member
    exact (List.mem_filter.mp filtered).1
  refine safe_settings fun configured others booked => ?_
  refine safe_orRaise (((setting.persists others).known known).typed booked).raises fun gpu _ => ?_
  refine Program.Safe.weaken (safe_firstFree fun backend member => starts backend (listed member))
    fun chosen _ _ rest => ⟨(looked_others others).trans rest.1, fun placement member =>
      listed (rest.2 placement member)⟩

theorem safe_heldBy {pass : Pass} {user : UserId} :
    setting.Safe (heldBy pass user : Op γ Nat) (fun _ next => Looked setting world next) world := by
  unfold heldBy
  split
  · exact fun final later _ => looked_others later
  · exact fun current others booked _ => ⟨booked, ⟨Quiet.refl _, .other, setting.rests,
      setting.outside.idle _⟩, fun final later _ => (looked_others others).trans (looked_others later)⟩

/-- A reservation a pass commits is taken from what it has left. -/
theorem Pass.remaining_commit (pass : Pass) (job : Job) (currency : Currency) :
    (pass.commit job).remaining currency =
      pass.remaining currency - if currency = job.currency then money job.reserved else 0 := by
  unfold Pass.remaining Pass.commit
  simp only
  split
  · rw [money_add, sub_add_eq_sub_sub]
  · rw [sub_zero]

/-- The pass over the queue. What it has left of its headroom is room in the pool as it stands, and
each reservation it commits is taken from both. -/
theorem safe_decideQueue {α : Type} {policy : Policy γ α} {kept : World γ → Prop}
    {owed : String → String → World γ → Prop}
    (starts : ∀ backend ∈ policy.site.backends, setting.Starts backend)
    (carries : setting.Carries policy.site kept owed)
    (consumes : Consumes setting policy.site kept policy.consume)
    {jobs : List Job} {pass : Pass} {report : α} (booked : Booked world) (carried : kept world)
    (copies : setting.Copies (· == .queued) jobs world)
    (room : setting.alone → ∀ currency, Room world currency (pass.remaining currency)) :
    setting.Safe (decideQueue policy jobs pass report) (fun _ next => kept next) world := by
  induction jobs generalizing pass report world with
  | nil => exact fun final others _ => carries.looked (looked_others others) carried
  | cons job rest inductionHypothesis =>
      have mine := copies.copy job List.mem_cons_self
      -- a decision that only notes the job goes on with the rest of the queue
      have onward : ∀ {action : Action} {report : α} {pass : Pass} {current : World γ},
          action ≠ .dispatch → Looked setting world current →
          (setting.alone → ∀ currency, Room current currency (pass.remaining currency)) →
          setting.Safe (policy.consume report job action none >>= fun report =>
            decideQueue policy rest pass report) (fun _ next => kept next) current := by
        intro action report pass current blocked looked has
        refine Program.Safe.bind (consumes.passed report job action none current
          (looked.keeps.copy mine).1 blocked) fun after next bookedNext noted => ?_
        have whole := looked.trans noted
        exact inductionHypothesis bookedNext (carries.looked whole carried) (copies.tail whole.keeps.weaken)
          fun alone currency => noted.room (fun alone => has alone currency) alone
      have here := looked_others (setting.refl world)
      unfold decideQueue
      split
      · exact onward (by decide) here room
      · split
        · exact onward (by decide) here room
        · refine Program.Safe.bind safe_heldBy fun count counted bookedCounted looked => ?_
          have has : setting.alone → ∀ currency, Room counted currency (pass.remaining currency) :=
            fun alone currency => looked.room (fun alone => room alone currency) alone
          simp only
          split
          · exact onward (by decide) looked has
          · split
            · refine Program.Safe.bind (consumes.passed report job .blockedPool none counted
                (looked.keeps.copy mine).1 (by decide)) fun report next bookedNext noted => ?_
              have whole := looked.trans noted
              split
              · have known : ∀ other ∈ rest, Known next other := fun other member =>
                  (whole.keeps.copy (copies.copy other (List.mem_cons_of_mem _ member))).1
                refine Program.Safe.weaken (Program.Safe.foldlM
                  (fun others _ current => (∀ other ∈ others, Known current other) ∧ kept current)
                  (fun items _ before after moved _ ahead => ⟨fun other member =>
                    (setting.persists moved).known (ahead.1 other member),
                    carries.looked (looked_others moved) ahead.2⟩)
                  (fun other items report current _ ahead => ?_) bookedNext
                  ⟨known, carries.looked whole carried⟩) fun _ _ _ ahead => ahead.2
                refine Program.Safe.weaken (consumes.passed report other .blockedPool none current
                  (ahead.1 other List.mem_cons_self) (by decide)) fun _ _ _ noted => ?_
                exact ⟨fun later member => noted.keeps.1.known
                  (ahead.1 later (List.mem_cons_of_mem _ member)), carries.looked noted ahead.2⟩
              · exact inductionHypothesis bookedNext (carries.looked whole carried)
                  (copies.tail whole.keeps.weaken)
                  fun alone currency => noted.room (fun alone => has alone currency) alone
            · next fits =>
              refine Program.Safe.bind (safe_choose (looked.keeps.copy mine).1 starts)
                fun chosen placed bookedPlaced choice => ?_
              have whole := looked.trans choice.1
              have left : setting.alone → ∀ currency, Room placed currency (pass.remaining currency) :=
                fun alone currency => choice.1.room (fun alone => has alone currency) alone
              cases chosen with
              | none => exact onward (by decide) whole left
              | some placement =>
                  refine Program.Safe.bind (consumes.dispatched report job placement placed
                    (choice.2 placement rfl) bookedPlaced (carries.looked whole carried)
                    (whole.keeps.copy mine) (by simpa using copies.state job List.mem_cons_self)
                    fun alone => (left alone job.currency).weaken (not_lt.mp fits))
                    fun report next keptNext launched => ?_
                  refine inductionHypothesis keptNext launched.2.2
                    (copies.tail (whole.keeps.weaken.trans launched.1)) fun alone currency => ?_
                  rw [Pass.remaining_commit]
                  exact launched.2.1 alone currency _ (left alone currency)

theorem safe_orderedQueue {site : Site γ} {now : Time} :
    setting.Safe (orderedQueue site now)
      (fun jobs next => Looked setting world next ∧ setting.Copies (· == .queued) jobs next)
      world := by
  refine safe_query fun listed others booked => safe_query fun scored later _ final last _ => ?_
  have moved := (looked_others later).trans (looked_others last)
  exact ⟨(looked_others others).trans moved,
    ((copies_listJobs booked).keeps moved.keeps).perm (List.mergeSort_perm _ _)⟩

theorem safe_decisions {α : Type} {site : Site γ} {now : Time} {kept : World γ → Prop}
    {owed : String → String → World γ → Prop}
    {consume : α → Job → Action → Option (Placement γ) → Op γ α} {report : α}
    (starts : ∀ backend ∈ site.backends, setting.Starts backend)
    (carries : setting.Carries site kept owed) (consumes : Consumes setting site kept consume)
    (carried : kept world) :
    setting.Safe (decisions site now consume report) (fun _ next => kept next) world := by
  refine safe_settings fun configured others _ => ?_
  refine Program.Safe.bind safe_poolHeadroom fun usd one _ first => ?_
  refine Program.Safe.bind safe_poolHeadroom fun gpuHour two _ second => ?_
  refine Program.Safe.bind safe_orderedQueue fun queue three _ ordered => ?_
  refine safe_query fun four later kept => ?_
  have rest := ordered.1.trans (looked_others later)
  have whole := (looked_others others).trans (first.1.trans (second.1.trans rest))
  refine safe_decideQueue starts carries consumes kept (carries.looked whole carried)
    (ordered.2.keeps (keeps_others later)) fun alone currency => ?_
  unfold Pass.remaining
  simp only
  rw [money_zero, sub_zero]
  cases currency with
  | usd => exact (second.1.trans rest).room first.2 alone
  | gpuHour => exact rest.room second.2 alone

/-- A pass of the scheduler. -/
theorem safe_tick {site : Site γ} (runs : setting.Runs site) (notes : setting.Notes)
    (free : ∀ write world, setting.makes write world) (sole : setting.Sole)
    (illegal : ∀ id current target, setting.raises (.illegalTransition id current target)) :
    setting.Safe (tick site) (fun _ _ => True) world := by
  refine safe_now fun asked _ _ => safe_query fun listed others booked => ?_
  refine Program.Safe.bind (Program.Safe.foldlM (fun jobs _ current =>
      setting.Copies JobState.active jobs current ∧ current.Shown (asked.clock asked.asked)) ?_ ?_
      booked ⟨copies_listJobs booked, (setting.persists others).shown asked.ticked_shown⟩)
    fun report next _ _ => safe_decisions runs.starts carries_nothing
      (consumes_dispatchOne notes (fun _ _ _ _ _ _ => free _ _) runs.starts carries_nothing) trivial
  · exact fun jobs report before after moved _ ahead =>
      ⟨ahead.1.keeps (keeps_others moved), (setting.persists moved).shown ahead.2⟩
  · intro job jobs report current _ ahead
    refine Program.Safe.bind (safe_advance runs notes free sole
      (ahead.1.copy job List.mem_cons_self) (ahead.1.state job List.mem_cons_self) ahead.2
      fun _ _ _ _ _ _ _ => Or.inr (illegal _ _ _)) fun outcome after _ keeps final later _ => ?_
    have kept := keeps.trans (keeps_others later).weaken
    exact ⟨ahead.1.tail kept, kept.1.shown ahead.2⟩

end GpuBroker.Broker
