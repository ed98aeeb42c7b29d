/-
This file is the pass over the idle jobs: which of them it decides to reclaim,
and what becomes of those.

A pass reads its verdicts at the start and takes one turn for each. A turn that
reclaims writes the notice first, stops the machine and moves the job last. The
jobs it judges are those of every active state, and samples and warnings outlive
a preemption, while only a job that is `RUNNING` may be moved to `RECLAIMED`. So
a pass is all or nothing when each job it decides to reclaim is `RUNNING` and
its machine can be stopped, and it is cut short otherwise.
-/
import GpuBroker.Broker.Launches
import GpuBroker.Broker.Rows

namespace GpuBroker.Broker

open Library

variable {γ : Type}

/-! ### Decisions -/

/-- The job is idle, its owner was warned, and the grace period is over. -/
def IdleVerdict.due (verdict : IdleVerdict) (moment : Time) : Bool :=
  verdict.idle && verdict.notifiedAt.isSome && verdict.graceEndsAt.any (· ≤ moment)

/-- The machine of a record, if it names one, answers that it is stopped. -/
def Stoppable (site : Site γ) (job : Job) (cloud : γ) : Prop :=
  ∀ name handle backend, truthy job.backend = some name → truthy job.backendHandle = some handle →
    site.backend name = some backend →
      (backend.terminate handle "reclaimed as idle" cloud).1 = .ok ()

/-- What makes a reclaim go through: the job is `RUNNING` and its machine can be stopped. -/
structure MayReclaim (site : Site γ) (job : Job) (cloud : γ) : Prop where
  running : job.state = .running
  stoppable : Stoppable site job cloud

/-- The verdicts of the idle jobs of a world. -/
def World.idle (world : World γ) : List IdleVerdict :=
  match (idleJobs.whole world).1 with
  | .ok verdicts => verdicts
  | .error _ => []

/-- The turns of a pass: each verdict with the world in which it comes to it. -/
def turns (site : Site γ) (enabled : Bool) : List IdleVerdict → World γ → List (IdleVerdict × World γ)
  | [], _ => []
  | verdict :: rest, world =>
      (verdict, world) ::
        turns site enabled rest ((reclaimNext site enabled {} verdict).whole world).2

/-- The turns of a pass in a world. -/
def World.turns (world : World γ) (site : Site γ) (force : Bool) : List (IdleVerdict × World γ) :=
  Broker.turns site (world.config.reclaimEnabled || force) world.idle (idleJobs.whole world).2

/-- The pass decides to reclaim the job at its turn. -/
def Decided (enabled : Bool) (turn : IdleVerdict × World γ) : Prop :=
  enabled = true ∧ turn.1.due (turn.2.clock turn.2.asked) = true

instance (enabled : Bool) (turn : IdleVerdict × World γ) : Decidable (Decided enabled turn) :=
  inferInstanceAs (Decidable (_ ∧ _))

/-- A job is `RECLAIMED`. -/
def Reclaimed (world : World γ) (id : JobId) : Prop :=
  ∃ row, world.db.jobs.find id = some row ∧ row.state = .reclaimed

/-- What a pass over the idle jobs comes to, and what it leaves. -/
def World.reclaim (world : World γ) (site : Site γ) (force : Bool) :
    Except BrokerError ReclaimReport × World (Watched γ) :=
  (Broker.reclaim site.watched force).whole world.watched

/-- What a pass over the idle jobs owes: it comes to every one of them, and a job that it writes the
notice of a reclaim for, or stops the machine of, it leaves `RECLAIMED`. -/
structure AllOrNothing (site : Site γ) (force : Bool) (world : World γ) : Prop where
  goesOn : ∃ report, (world.reclaim site force).1 = .ok report ∧
    ∀ verdict ∈ world.watched.idle, verdict.job.jobId ∈ report.ready ++ report.held
  told : ∀ notification ∈
      (world.reclaim site force).2.db.notifications.drop world.db.notifications.length,
    notification.notice.kind = "reclaimed" → ∀ id ∈ notification.jobId,
      Reclaimed (world.reclaim site force).2 id
  stopped : ∀ name handle, .terminated name handle ∈ (world.reclaim site force).2.cloud.calls →
    ∃ id row, world.db.jobs.find id = some row ∧ row.backend = some name ∧
      row.backendHandle = some handle ∧ Reclaimed (world.reclaim site force).2 id

/-! ### Programs run to their end -/

section Whole

variable {α : Type} {world : World γ}

theorem whole_reclaimable (verdict : IdleVerdict) (world : World γ) :
    ((reclaimable verdict).whole world).1 = .ok (verdict.due (world.clock world.asked)) ∧
      (((reclaimable verdict).whole world).2 = world ∨
        ((reclaimable verdict).whole world).2 = world.ticked) := by
  unfold reclaimable IdleVerdict.due
  cases verdict.idle with
  | false => exact ⟨rfl, Or.inl rfl⟩
  | true =>
      cases verdict.notifiedAt with
      | none => exact ⟨rfl, Or.inl rfl⟩
      | some notified =>
          cases verdict.graceEndsAt with
          | none => exact ⟨rfl, Or.inl rfl⟩
          | some graceEndsAt => exact ⟨rfl, Or.inr rfl⟩

/-- A turn is the decision, and the reclaim when that is what is decided. -/
theorem whole_reclaimNext (site : Site γ) (enabled : Bool) (report : ReclaimReport)
    (verdict : IdleVerdict) (world : World γ) :
    (reclaimNext site enabled report verdict).whole world =
      let looked := ((reclaimable verdict).whole world).2
      let report' := { report with ready := report.ready ++ [verdict.job.jobId] }
      if verdict.due (world.clock world.asked) then
        if enabled then
          (reclaimOne site verdict >>= fun _ =>
            pure { report' with reclaimed := report.reclaimed ++ [verdict.job.jobId] }).whole looked
        else (.ok report', looked)
      else (.ok { report with held := report.held ++ [verdict.job.jobId] }, looked) := by
  have decided := (whole_reclaimable verdict world).1
  unfold reclaimNext
  rw [Program.whole_bind_ok (Prod.ext decided rfl)]
  simp only
  split
  · next due =>
    cases enabled <;> rfl
  · rfl

/-- What notes of the broker do not change. -/
theorem whole_executing_cloud (write : Write) (value : α) (world : World γ) :
    ((executing write value).whole world).2.cloud = world.cloud := by
  rw [whole_executing]
  cases applied : write.apply world with
  | ok next => exact apply_cloud applied
  | error error => rfl

theorem whole_notify_cloud (user : UserId) (job : Option JobId) (notice : Notice) (world : World γ) :
    ((notify user job notice).whole world).2.cloud = world.cloud :=
  whole_executing_cloud _ _ world.ticked

theorem whole_appendLog_cloud (job : JobId) (line : String) (world : World γ) :
    ((appendLog job line).whole world).2.cloud = world.cloud := by
  unfold appendLog
  rw [whole_settings, whole_query]
  simp only
  split
  · rfl
  · exact whole_executing_cloud _ _ world.ticked

theorem stoppable_of_whole {site : Site γ} {job : Job}
    (ended : ((terminateHeld site job "reclaimed as idle").whole world).1 = .ok ()) :
    Stoppable site job world.cloud := by
  intro name handle backend named held found
  unfold terminateHeld at ended
  simp only [named, held, found] at ended
  obtain ⟨answer, came, rest⟩ := Program.ok_of_whole_bind ended
  cases came
  cases stopped : (backend.terminate handle "reclaimed as idle" world.cloud).1 with
  | ok done => rfl
  | error detail =>
      rw [stopped] at rest
      cases rest

theorem legal_of_whole {job updated : Job} {target : JobState} {change : Change}
    (ended : ((transition job target change).whole world).1 = .ok updated) :
    job.state.canTransition target = true := by
  unfold transition at ended
  split at ended
  · assumption
  · cases ended

/-- A reclaim that goes through is one of a job that is `RUNNING` and whose machine can be stopped. -/
theorem mayReclaim_of_whole {site : Site γ} {verdict : IdleVerdict}
    (ended : ((reclaimOne site verdict).whole world).1 = .ok ()) :
    MayReclaim site verdict.job world.cloud := by
  obtain ⟨notification, _, afterNotice⟩ := Program.ok_of_whole_bind
    (show ((notify _ _ _ >>= _).whole world.ticked).1 = .ok () from ended)
  obtain ⟨_, _, afterLog⟩ := Program.ok_of_whole_bind afterNotice
  obtain ⟨_, stopped, afterStop⟩ := Program.ok_of_whole_bind afterLog
  obtain ⟨updated, moved, _⟩ := Program.ok_of_whole_bind afterStop
  refine ⟨?_, ?_⟩
  · have legal := legal_of_whole moved
    revert legal
    cases verdict.job.state <;> decide
  · have stoppable := stoppable_of_whole stopped
    rw [whole_appendLog_cloud, whole_notify_cloud] at stoppable
    exact stoppable

/-- A turn that goes through, when the pass decides to reclaim the job. -/
theorem mayReclaim_of_turn {site : Site γ} {enabled : Bool} {report after : ReclaimReport}
    {verdict : IdleVerdict}
    (ended : ((reclaimNext site enabled report verdict).whole world).1 = .ok after)
    (decided : Decided enabled (verdict, world)) : MayReclaim site verdict.job world.cloud := by
  have cloud : ((reclaimable verdict).whole world).2.cloud = world.cloud := by
    rcases (whole_reclaimable verdict world).2 with same | ticked
    · rw [same]
    · rw [ticked]
      rfl
  rw [whole_reclaimNext, if_pos decided.2, if_pos decided.1] at ended
  obtain ⟨_, came, _⟩ := Program.ok_of_whole_bind ended
  rw [← cloud]
  exact mayReclaim_of_whole came

/-- A turn leaves the same world whatever was reported before it. -/
theorem whole_reclaimNext_world (site : Site γ) (enabled : Bool) (report : ReclaimReport)
    (verdict : IdleVerdict) (world : World γ) :
    ((reclaimNext site enabled report verdict).whole world).2 =
      ((reclaimNext site enabled {} verdict).whole world).2 := by
  rw [whole_reclaimNext, whole_reclaimNext]
  simp only
  split
  · split
    · rw [Program.whole_bind, Program.whole_bind]
      split <;> rfl
    · rfl
  · rfl

/-- A pass that comes to its end has reclaimed only jobs that may be reclaimed. -/
theorem mayReclaim_of_pass {site : Site γ} {enabled : Bool} {verdicts : List IdleVerdict}
    {report after : ReclaimReport}
    (ended : ((verdicts.foldlM (reclaimNext site enabled) report).whole world).1 = .ok after) :
    ∀ turn ∈ turns site enabled verdicts world, Decided enabled turn →
      MayReclaim site turn.1.job turn.2.cloud := by
  induction verdicts generalizing report world with
  | nil => exact fun _ member => (List.not_mem_nil member).elim
  | cons verdict rest inductionHypothesis =>
      rw [List.foldlM_cons] at ended
      obtain ⟨next, first, later⟩ := Program.ok_of_whole_bind ended
      intro turn member decided
      rcases List.mem_cons.mp member with rfl | further
      · exact mayReclaim_of_turn first decided
      · rw [← whole_reclaimNext_world site enabled report] at further
        exact inductionHypothesis later turn further decided

/-! ### A turn that goes through -/

theorem whole_notify {user : UserId} {id : JobId} {notice : Notice} (present : Present world id) :
    ∃ notification : Notification, notification.jobId = some id ∧ notification.notice = notice ∧
      (notify user (some id) notice).whole world =
        (.ok notification, { world.ticked with
          db := { world.db with notifications := world.db.notifications ++ [notification] } }) := by
  refine ⟨⟨some id, user, notice, world.clock world.asked⟩, rfl, rfl, ?_⟩
  obtain ⟨row, found⟩ := present
  show (executing _ _).whole world.ticked = _
  have known : (world.ticked.db.jobs.find id).isSome = true := by
    show (world.db.jobs.find id).isSome = true
    rw [found]
    rfl
  rw [whole_executing]
  simp only [Write.apply, Write.onDb, Option.all_some, known, if_true]
  rfl

/-- What a line of the log leaves as it was. -/
structure Logged (world next : World γ) : Prop where
  rows : ∀ id, next.db.jobs.find id = world.db.jobs.find id
  notifications : next.db.notifications = world.db.notifications
  cloud : next.cloud = world.cloud

theorem whole_appendLog {id : JobId} {line : String} (present : Present world id) :
    ∃ next, (appendLog id line).whole world = (.ok (), next) ∧ Logged world next := by
  obtain ⟨row, found⟩ := present
  unfold appendLog
  rw [whole_settings, whole_query]
  simp only
  split
  · exact ⟨world, rfl, ⟨fun _ => rfl, rfl, rfl⟩⟩
  · have ours : (Touch.note (withinLogBudget world.config (world.db.logCount id)
        [("broker", line)])).Ours := by
      intro kept member
      rcases withinLogBudget_stream member with same | ⟨whole, single, rfl⟩
      · exact same
      · rw [clipLine_stream, List.mem_singleton.mp single]
    rw [whole_now, whole_executing]
    cases applied : Write.apply (.touch id (.note (withinLogBudget world.config
        (world.db.logCount id) [("broker", line)])) (world.clock world.asked)) world.ticked with
    | ok next =>
        have cloud : next.cloud = world.ticked.cloud := apply_cloud applied
        refine ⟨next, rfl, ⟨fun other => ?_, ?_, cloud⟩⟩
        all_goals
          obtain ⟨db, written, rfl⟩ := Write.apply_eq applied
          rw [Db.touchJob_eq written]
        · show (world.db.jobs.modify id _ (Touch.onRow_id _ _)).find other = _
          rw [Table.find_modify]
          split
          · exact Option.map_id'
          · rfl
        · rfl
    | error error =>
        have sound : Sound world.ticked (.touch id (.note (withinLogBudget world.config
            (world.db.logCount id) [("broker", line)])) (world.clock world.asked)) :=
          ⟨⟨row, found⟩, Or.inl ours⟩
        refine absurd applied (beside_commits trivial sound fun _ _ _ same => ?_)
        cases same
        exact ours.streams

theorem whole_transition {job row : Job} {target : JobState} {change : Change}
    (found : world.db.jobs.find job.jobId = some row) (state : row.state = job.state)
    (legal : job.state.canTransition target = true) (clears : change.clearHandle = true) :
    ∃ updated next, (transition job target change).whole world = (.ok updated, next) ∧
      next.cloud = world.cloud ∧ next.db.notifications = world.db.notifications ∧
      (∀ other, other ≠ job.jobId → next.db.jobs.find other = world.db.jobs.find other) ∧
      ∃ moved, next.db.jobs.find job.jobId = some moved ∧ moved.state = target := by
  have commits : ∀ outstanding, ∃ updated next,
      (executing (.move job target change (world.clock world.asked) outstanding)
        (job.movedTo target change (world.clock world.asked))).whole world.ticked = (.ok updated, next) ∧
      next.cloud = world.cloud ∧ next.db.notifications = world.db.notifications ∧
      (∀ other, other ≠ job.jobId → next.db.jobs.find other = world.db.jobs.find other) ∧
      ∃ moved, next.db.jobs.find job.jobId = some moved ∧ moved.state = target := by
    intro outstanding
    rw [whole_executing]
    cases applied : Write.apply (.move job target change (world.clock world.asked) outstanding)
        world.ticked with
    | ok next =>
        have cloud : next.cloud = world.ticked.cloud := apply_cloud applied
        refine ⟨_, next, rfl, cloud, ?_⟩
        obtain ⟨db, written, rfl⟩ := Write.apply_eq applied
        obtain ⟨_, _, _, rfl⟩ := Db.moveJob_eq written
        refine ⟨rfl, fun other differs => ?_,
          (job.movedTo target change (world.clock world.asked)).writtenOver row, ?_, rfl⟩
        · show (world.db.jobs.modify job.jobId _ (Job.writtenOver_id _)).find other = _
          rw [Table.find_modify, if_neg differs]
        · show (world.db.jobs.modify job.jobId _ (Job.writtenOver_id _)).find job.jobId = _
          rw [Table.find_modify_found found, if_pos rfl]
    | error error =>
        have held : (job.movedTo target change (world.clock world.asked)).backendHandle.isSome = true :=
          move_rolledBack (show world.ticked.db.jobs.find job.jobId = some row from found) state applied
        unfold Job.movedTo at held
        rw [clears, if_pos rfl] at held
        cases held
  unfold transition
  rw [if_pos legal, whole_now]
  split
  · exact commits _
  · exact commits none

end Whole

/-! ### Looking at the idle jobs -/

/-- A process that is alone and only looks, on capacity that no call changes. -/
def looking (γ : Type) : Setting γ :=
  { solitary { (Outside.unknown : Outside γ) with
      calls := fun _ before after => after = before, idle := fun _ => rfl } with
    makes := fun _ _ => False
    lasts := fun made _ => made
    raises := fun _ => False
    unmoved := fun _ made _ _ => made.elim
    fails := fun _ _ made => made.elim }

theorem looking_path {world next : World γ} (path : (looking γ).contract.Path world next) :
    Quiet world next ∧ next.cloud = world.cloud := by
  induction path with
  | refl => exact ⟨Quiet.refl world, rfl⟩
  | tail _ moved kept =>
      obtain ⟨label, _, _, guarantee⟩ := moved
      cases label with
      | none =>
          obtain ⟨quiet, _, _, still⟩ := guarantee
          exact ⟨kept.1.trans quiet, still.trans kept.2⟩
      | some write => exact guarantee.1.makes.elim

/-- The verdicts on the idle jobs are on good copies of distinct active jobs; nothing is changed. -/
theorem whole_idleJobs {world : World γ} (booked : Booked world) :
    (idleJobs.whole world).1 = .ok world.idle ∧ Booked (idleJobs.whole world).2 ∧
      Quiet world (idleJobs.whole world).2 ∧ (idleJobs.whole world).2.cloud = world.cloud ∧
      (looking γ).Copies JobState.active (world.idle.map IdleVerdict.job) (idleJobs.whole world).2 := by
  have safe : (looking γ).Safe idleJobs _ world := safe_idleJobs
  obtain ⟨kept, path, answered, raised⟩ := safe.whole booked fun _ _ => trivial
  obtain ⟨quiet, cloud⟩ := looking_path path
  unfold World.idle
  cases ended : (idleJobs.whole world).1 with
  | error error => exact (raised error ended).elim
  | ok verdicts => exact ⟨rfl, kept, quiet, cloud, answered verdicts ended⟩

/-! ### A turn -/

/-- What a turn leaves: the records of other jobs, and a job that it told its owner about, or stopped
the machine of, `RECLAIMED`. -/
structure Turned (job : Job) (world next : World (Watched γ)) : Prop where
  booked : Booked next
  rows : ∀ other, other ≠ job.jobId → next.db.jobs.find other = world.db.jobs.find other
  told : ∃ told, next.db.notifications = world.db.notifications ++ told ∧
    ∀ notification ∈ told, ∀ id ∈ notification.jobId, id = job.jobId ∧ Reclaimed next id
  stopped : ∃ calls, next.cloud.calls = world.cloud.calls ++ calls ∧
    ∀ name handle, .terminated name handle ∈ calls → job.backend = some name ∧
      job.backendHandle = some handle ∧ Reclaimed next job.jobId

theorem watched_terminate {site : Site γ} {name handle why : String} {backend : Backend (Watched γ)}
    (found : site.watched.backend name = some backend) (watched : Watched γ) :
    (backend.terminate handle why watched).2.calls = watched.calls ++ [.terminated name handle] := by
  rw [watched_backend] at found
  obtain ⟨plain, hasPlain, rfl⟩ := Option.map_eq_some_iff.mp found
  rw [← (Site.backend_mem hasPlain).2]
  rfl

theorem whole_terminateHeld {site : Site γ} {job : Job} {world : World (Watched γ)}
    (stoppable : Stoppable site.watched job world.cloud) :
    ∃ next, (terminateHeld site.watched job "reclaimed as idle").whole world = (.ok (), next) ∧
      next.db = world.db ∧ ∃ calls, next.cloud.calls = world.cloud.calls ++ calls ∧
        ∀ name handle, .terminated name handle ∈ calls → job.backend = some name ∧
          job.backendHandle = some handle := by
  have nothing : ∃ next, (pure () : Op (Watched γ) Unit).whole world = (.ok (), next) ∧
      next.db = world.db ∧ ∃ calls, next.cloud.calls = world.cloud.calls ++ calls ∧
        ∀ name handle, .terminated name handle ∈ calls → job.backend = some name ∧
          job.backendHandle = some handle :=
    ⟨world, rfl, rfl, [], (List.append_nil _).symm, fun _ _ => nofun⟩
  unfold terminateHeld
  split
  · next name handle named held =>
    split
    · next backend found =>
      have answer := stoppable name handle backend named held found
      refine ⟨world.called (backend.terminate handle "reclaimed as idle" world.cloud).2, ?_, rfl,
        [.terminated name handle], watched_terminate found world.cloud, ?_⟩
      · unfold externally
        rw [whole_external, answer]
        rfl
      · intro other held' member
        cases List.mem_singleton.mp member
        exact ⟨truthy_eq named, truthy_eq held⟩
    · exact nothing
  · exact nothing

/-- A job that may be reclaimed is reclaimed. -/
theorem whole_reclaimOne {site : Site γ} {verdict : IdleVerdict} {world : World (Watched γ)}
    (inStep : InStep world verdict.job) (may : MayReclaim site.watched verdict.job world.cloud) :
    ∃ next, (reclaimOne site.watched verdict).whole world = (.ok (), next) ∧
      (Booked next → Turned verdict.job world next) := by
  obtain ⟨row, found, same⟩ := inStep
  have state : row.state = verdict.job.state := essence_eq same Job.state fun _ => rfl
  unfold reclaimOne
  simp only
  rw [whole_settings, whole_now]
  obtain ⟨notification, named, _, noticed⟩ :=
    whole_notify (show Present world.ticked verdict.job.jobId from ⟨row, found⟩)
  rw [Program.whole_bind_ok noticed]
  generalize noted : ({ world.ticked.ticked with
    db := { world.ticked.db with
      notifications := world.ticked.db.notifications ++ [notification] } } : World (Watched γ)) = told
  have jobs : told.db.jobs = world.db.jobs := noted ▸ rfl
  have notices : told.db.notifications = world.db.notifications ++ [notification] := noted ▸ rfl
  have still : told.cloud = world.cloud := noted ▸ rfl
  clear noted noticed
  obtain ⟨logged, log, kept⟩ := whole_appendLog (show Present told verdict.job.jobId from
    ⟨row, jobs ▸ found⟩)
  rw [Program.whole_bind_ok log]
  have cloud : logged.cloud = world.cloud := kept.cloud.trans still
  obtain ⟨stopped, stop, db, calls, halted, machines⟩ := whole_terminateHeld (cloud ▸ may.stoppable)
  rw [Program.whole_bind_ok stop]
  have rows : ∀ other, stopped.db.jobs.find other = world.db.jobs.find other := fun other => by
    rw [db, kept.rows, jobs]
  have hasRow : stopped.db.jobs.find verdict.job.jobId = some row := (rows _).trans found
  have legal : verdict.job.state.canTransition .reclaimed = true := by
    rw [may.running]
    rfl
  obtain ⟨updated, next, move, cloudNext, noticesNext, others, moved, movedRow, gone⟩ :=
    whole_transition hasRow state legal
      (show ({ reason := .idle verdict.reason, clearHandle := true } : Change).clearHandle = true from rfl)
  refine ⟨next, Program.whole_bind_ok move, fun booked => ⟨booked, fun other differs => ?_, ?_, ?_⟩⟩
  · rw [others other differs, rows]
  · refine ⟨[notification], ?_, fun one member id mine => ?_⟩
    · rw [noticesNext, db, kept.notifications, notices]
    · cases List.mem_singleton.mp member
      rw [named] at mine
      cases mine
      exact ⟨rfl, moved, movedRow, gone⟩
  · refine ⟨calls, ?_, fun name handle member => ?_⟩
    · rw [cloudNext, halted, cloud]
    · obtain ⟨backend, held⟩ := machines name handle member
      exact ⟨backend, held, moved, movedRow, gone⟩

/-- A report goes on from another. -/
structure GoesOn (before after : ReclaimReport) : Prop where
  ready : before.ready ⊆ after.ready
  held : before.held ⊆ after.held

/-- A turn works on its own job. -/
theorem safe_turn {site : Site γ} {enabled : Bool} {report : ReclaimReport} {verdict : IdleVerdict}
    {world : World γ} (copy : (looking γ).Copy verdict.job world)
    (active : verdict.job.state.active = true) :
    (solitary Outside.unknown).WorksOn verdict.job.jobId (reclaimNext site enabled report verdict)
      world :=
  safe_reclaimNext (fun _ => trivial)
    ⟨fun _ _ _ _ _ => trivial, fun _ _ _ => trivial, fun _ _ => trivial⟩
    (fun _ _ => trivial) (runs_unknown site).ends copy active

/-- A turn goes through, unless the pass decides to reclaim a job that may not be reclaimed. -/
theorem whole_turn {site : Site γ} {enabled : Bool} {report : ReclaimReport} {verdict : IdleVerdict}
    {world : World (Watched γ)} (booked : Booked world)
    (copy : (looking (Watched γ)).Copy verdict.job world) (active : verdict.job.state.active = true)
    (may : Decided enabled (verdict, world) → MayReclaim site.watched verdict.job world.cloud) :
    ∃ after next, (reclaimNext site.watched enabled report verdict).whole world = (.ok after, next) ∧
      Turned verdict.job world next ∧ GoesOn report after ∧
        verdict.job.jobId ∈ after.ready ++ after.held := by
  have safe : (solitary Outside.unknown).WorksOn verdict.job.jobId
      (reclaimNext site.watched enabled report verdict) world := safe_turn copy active
  have kept := (safe.whole booked fun _ _ => trivial).1
  -- the decision reads the clock at most, and a turn that reclaims nothing leaves it at that
  have looked : ((reclaimable verdict).whole world).2.db = world.db ∧
      ((reclaimable verdict).whole world).2.cloud = world.cloud := by
    rcases (whole_reclaimable verdict world).2 with same | ticked
    · rw [same]
      exact ⟨rfl, rfl⟩
    · rw [ticked]
      exact ⟨rfl, rfl⟩
  have nothing : Booked ((reclaimable verdict).whole world).2 →
      Turned verdict.job world ((reclaimable verdict).whole world).2 := fun booked =>
    ⟨booked, fun other _ => by rw [looked.1], ⟨[], by rw [looked.1, List.append_nil], nofun⟩,
      ⟨[], by rw [looked.2, List.append_nil], fun _ _ => nofun⟩⟩
  rw [whole_reclaimNext] at kept ⊢
  simp only at kept ⊢
  by_cases due : verdict.due (world.clock world.asked) = true
  · rw [if_pos due] at kept ⊢
    by_cases on : enabled = true
    · rw [if_pos on] at kept ⊢
      have inStep : InStep ((reclaimable verdict).whole world).2 verdict.job := by
        unfold InStep
        rw [looked.1]
        exact copy.2 trivial
      obtain ⟨next, went, turned⟩ := whole_reclaimOne inStep (looked.2 ▸ may ⟨on, due⟩)
      rw [Program.whole_bind_ok went] at kept ⊢
      obtain ⟨bookedNext, rows, told, stopped⟩ := turned kept
      refine ⟨_, next, rfl, ⟨bookedNext, ?_, ?_, ?_⟩, ⟨?_, fun _ member => member⟩, ?_⟩
      · rw [looked.1] at rows
        exact rows
      · rw [looked.1] at told
        exact told
      · rw [looked.2] at stopped
        exact stopped
      · exact fun _ member => List.mem_append_left _ member
      · simp
    · rw [if_neg on] at kept ⊢
      refine ⟨_, _, rfl, nothing kept, ⟨fun _ member => List.mem_append_left _ member,
        fun _ member => member⟩, ?_⟩
      simp
  · rw [if_neg due] at kept ⊢
    refine ⟨_, _, rfl, nothing kept, ⟨fun _ member => member,
      fun _ member => List.mem_append_left _ member⟩, ?_⟩
    simp

/-! ### A pass -/

/-- What turns leave: the records of other jobs, and every job that one of them told its owner about,
or stopped the machine of, `RECLAIMED`. -/
structure Passed (jobs : List Job) (world next : World (Watched γ)) : Prop where
  booked : Booked next
  rows : ∀ other, other ∉ jobs.map Job.jobId → next.db.jobs.find other = world.db.jobs.find other
  told : ∃ told, next.db.notifications = world.db.notifications ++ told ∧
    ∀ notification ∈ told, ∀ id ∈ notification.jobId, Reclaimed next id
  stopped : ∃ calls, next.cloud.calls = world.cloud.calls ++ calls ∧
    ∀ name handle, .terminated name handle ∈ calls → ∃ job ∈ jobs, job.backend = some name ∧
      job.backendHandle = some handle ∧ Reclaimed next job.jobId

theorem Reclaimed.same {world next : World γ} {id : JobId} (reclaimed : Reclaimed world id)
    (same : next.db.jobs.find id = world.db.jobs.find id) : Reclaimed next id := by
  obtain ⟨row, found, state⟩ := reclaimed
  exact ⟨row, same.trans found, state⟩

theorem Turned.passed {job : Job} {jobs : List Job} {world middle next : World (Watched γ)}
    (turned : Turned job world middle) (passed : Passed jobs middle next)
    (fresh : job.jobId ∉ jobs.map Job.jobId) : Passed (job :: jobs) world next := by
  have stays : Reclaimed middle job.jobId → Reclaimed next job.jobId := fun reclaimed =>
    reclaimed.same (passed.rows _ fresh)
  obtain ⟨toldFirst, first, mine⟩ := turned.told
  obtain ⟨toldLater, later, others⟩ := passed.told
  obtain ⟨callsFirst, stopped, machine⟩ := turned.stopped
  obtain ⟨callsLater, halted, machines⟩ := passed.stopped
  refine ⟨passed.booked, fun other apart => ?_, ⟨toldFirst ++ toldLater, ?_, ?_⟩,
    ⟨callsFirst ++ callsLater, ?_, ?_⟩⟩
  · have both := not_or.mp (mt List.mem_cons.mpr apart)
    rw [passed.rows other both.2, turned.rows other both.1]
  · rw [later, first, List.append_assoc]
  · intro notification member id named
    rcases List.mem_append.mp member with early | late
    · obtain ⟨rfl, reclaimed⟩ := mine notification early id named
      exact stays reclaimed
    · exact others notification late id named
  · rw [halted, stopped, List.append_assoc]
  · intro name handle member
    rcases List.mem_append.mp member with early | late
    · obtain ⟨backend, held, reclaimed⟩ := machine name handle early
      exact ⟨job, List.mem_cons_self, backend, held, stays reclaimed⟩
    · obtain ⟨other, among, rest⟩ := machines name handle late
      exact ⟨other, List.mem_cons_of_mem _ among, rest⟩

/-- A pass goes through, unless it decides to reclaim a job that may not be reclaimed. -/
theorem whole_pass {site : Site γ} {enabled : Bool} {verdicts : List IdleVerdict}
    {report : ReclaimReport} {world : World (Watched γ)} (booked : Booked world)
    (copies : (looking (Watched γ)).Copies JobState.active (verdicts.map IdleVerdict.job) world)
    (may : ∀ turn ∈ turns site.watched enabled verdicts world, Decided enabled turn →
      MayReclaim site.watched turn.1.job turn.2.cloud) :
    ∃ after next,
      (verdicts.foldlM (reclaimNext site.watched enabled) report).whole world = (.ok after, next) ∧
      Passed (verdicts.map IdleVerdict.job) world next ∧ GoesOn report after ∧
        ∀ verdict ∈ verdicts, verdict.job.jobId ∈ after.ready ++ after.held := by
  induction verdicts generalizing report world with
  | nil =>
      have nothing : Passed [] world world :=
        ⟨booked, fun _ _ => rfl,
          ⟨[], (List.append_nil _).symm, fun _ member => (List.not_mem_nil member).elim⟩,
          ⟨[], (List.append_nil _).symm, fun _ _ member => (List.not_mem_nil member).elim⟩⟩
      exact ⟨report, world, rfl, nothing, ⟨fun _ member => member, fun _ member => member⟩,
        fun _ member => (List.not_mem_nil member).elim⟩
  | cons verdict rest inductionHypothesis =>
      have copy : (looking (Watched γ)).Copy verdict.job world := copies.copy _ List.mem_cons_self
      have active : verdict.job.state.active = true := copies.state _ List.mem_cons_self
      have mayFirst : Decided enabled (verdict, world) →
          MayReclaim site.watched verdict.job world.cloud := may (verdict, world) List.mem_cons_self
      obtain ⟨first, middle, went, turned, goesOn, mine⟩ :
          ∃ after next, (reclaimNext site.watched enabled report verdict).whole world = (.ok after, next) ∧
            Turned verdict.job world next ∧ GoesOn report after ∧
              verdict.job.jobId ∈ after.ready ++ after.held := whole_turn booked copy active mayFirst
      have world' : ((reclaimNext site.watched enabled {} verdict).whole world).2 = middle := by
        rw [← whole_reclaimNext_world site.watched enabled report, went]
      have distinct := List.nodup_cons.mp copies.distinct
      have ahead : (looking (Watched γ)).Copies JobState.active (rest.map IdleVerdict.job) middle := by
        have safe : (solitary Outside.unknown).WorksOn verdict.job.jobId
            (reclaimNext site.watched enabled report verdict) world := safe_turn copy active
        have kept := (safe.whole booked fun _ _ => trivial).2.2.1
        rw [went] at kept
        exact copies.tail (kept first rfl)
      obtain ⟨after, next, passes, passed, further, others⟩ := inductionHypothesis turned.booked ahead
        fun turn member => may turn (List.mem_cons_of_mem _ (world' ▸ member))
      refine ⟨after, next, ?_, turned.passed passed distinct.1, ⟨fun _ member =>
        further.ready (goesOn.ready member), fun _ member => further.held (goesOn.held member)⟩, ?_⟩
      · rw [List.foldlM_cons, Program.whole_bind_ok went, passes]
      · intro other member
        rcases List.mem_cons.mp member with rfl | among
        · rcases List.mem_append.mp mine with ready | held
          · exact List.mem_append_left _ (further.ready ready)
          · exact List.mem_append_right _ (further.held held)
        · exact others other among

/-- A pass over the idle jobs, in any world a run can leave, is all or nothing exactly when each job
it decides to reclaim is `RUNNING` at its turn and its machine can then be stopped. -/
theorem reclaim_all_or_nothing_iff (desk : Desk γ) (config : BrokerConfig) (cloud : γ)
    (clock : Nat → Time) (entries : List (Operation × Nat)) (force : Bool) :
    let world := desk.after entries (World.new config cloud clock)
    AllOrNothing desk.site force world ↔
      ∀ turn ∈ world.watched.turns desk.site.watched force,
        Decided (world.config.reclaimEnabled || force) turn →
          MayReclaim desk.site.watched turn.1.job turn.2.cloud := by
  intro world
  have booked : Booked world.watched := (desk.booked entries (Booked.new config cloud clock)).watched
  obtain ⟨listed, bookedHere, quiet, still, copies⟩ := whole_idleJobs booked
  have judged : idleJobs.whole world.watched = (.ok world.watched.idle, (idleJobs.whole world.watched).2) :=
    Prod.ext listed rfl
  have passes : world.reclaim desk.site force = (world.watched.idle.foldlM
      (reclaimNext desk.site.watched (world.config.reclaimEnabled || force)) {} >>= fun report => do
        let idle ← idleJobs
        pure { report with idle := idle.map fun verdict => verdict.job.jobId }).whole
          (idleJobs.whole world.watched).2 := by
    unfold World.reclaim reclaim
    rw [whole_settings, Program.whole_bind_ok judged]
    rfl
  constructor
  · intro owes
    obtain ⟨report, ended, _⟩ := owes.goesOn
    rw [passes] at ended
    obtain ⟨after, went, _⟩ := Program.ok_of_whole_bind ended
    exact mayReclaim_of_pass went
  · intro may
    obtain ⟨after, next, went, passed, goesOn, all⟩ :
        ∃ after next, (world.watched.idle.foldlM (reclaimNext desk.site.watched
          (world.config.reclaimEnabled || force)) {}).whole (idleJobs.whole world.watched).2 =
            (.ok after, next) ∧
          Passed (world.watched.idle.map IdleVerdict.job) (idleJobs.whole world.watched).2 next ∧
          GoesOn {} after ∧ ∀ verdict ∈ world.watched.idle,
            verdict.job.jobId ∈ after.ready ++ after.held := whole_pass bookedHere copies may
    obtain ⟨again, _, quietLast, stillLast, _⟩ := whole_idleJobs passed.booked
    have last : idleJobs.whole next = (.ok next.idle, (idleJobs.whole next).2) := Prod.ext again rfl
    have ended : world.reclaim desk.site force =
        (.ok { after with idle := next.idle.map fun verdict => verdict.job.jobId },
          (idleJobs.whole next).2) := by
      rw [passes, Program.whole_bind_ok went, Program.whole_bind_ok last]
      rfl
    have stays : ∀ {id}, Reclaimed next id → Reclaimed (world.reclaim desk.site force).2 id := by
      intro id reclaimed
      refine reclaimed.same ?_
      rw [ended, quietLast.db]
    refine ⟨⟨_, congrArg Prod.fst ended, all⟩, fun notification member _ id named => ?_,
      fun name handle member => ?_⟩
    · obtain ⟨told, notices, mine⟩ := passed.told
      have db : (world.reclaim desk.site force).2.db = next.db := by rw [ended, quietLast.db]
      rw [db, notices, quiet.db] at member
      have new : notification ∈ told := by simpa [World.watched] using member
      exact stays (mine notification new id named)
    · obtain ⟨calls, halted, machines⟩ := passed.stopped
      have cloud : (world.reclaim desk.site force).2.cloud = next.cloud := by rw [ended, stillLast]
      rw [cloud, halted, still] at member
      obtain ⟨job, among, backend, held, reclaimed⟩ := machines name handle (by simpa [World.watched] using member)
      obtain ⟨row, found, same⟩ := (copies.copy job among).2 trivial
      rw [quiet.db] at found
      exact ⟨job.jobId, row, found, (essence_eq same Job.backend fun _ => rfl).trans backend,
        (essence_eq same Job.backendHandle fun _ => rfl).trans held, stays reclaimed⟩

/-! ### A pass that is cut short -/

/-- Settings under which one sample is enough and the grace period is a quarter of an hour. -/
def BrokerConfig.reclaiming : BrokerConfig :=
  { BrokerConfig.club with
    reclaimEnabled := true
    idleWindow := 86400000000
    idleMinSamples := 1
    idleGrace := 900000000 }

/-- A rack whose machines report at every look what their GPUs do. -/
def Rack.measured (script : Nat → BackendStatus) (readings : Nat → List Reading) : Desk Rack :=
  let desk := Rack.desk script fun _ => []
  let backend := Rack.backend script fun _ => []
  { desk with
    site := { desk.site with
      backends := [{ backend with
        sampleUtilization := fun _ rack => (.ok (readings rack.polls), rack) }] } }

/-- A rack whose GPUs do nothing, and that takes its first machine away at the second look. -/
def Rack.requeued : Desk Rack :=
  Rack.measured (fun poll => if poll = 1 then .interrupted else .running)
    fun polls => [⟨polls * twelveMinutes, 0, 0⟩]

/-- A job was idle and its owner warned, its machine was taken away, and it has a new one. -/
def World.requeued : World Rack :=
  Rack.requeued.after (Operation.opening ++ List.replicate 3 (.tick, 80)) (World.club .reclaiming)

/-- A pass reclaims the job on the samples of its first machine: it writes the notice and stops the
second machine, and then raises, and the job stays `ALLOCATING`. -/
theorem reclaim_cut_short :
    (∃ notification ∈ (World.requeued.reclaim Rack.requeued.site false).2.db.notifications.drop
        World.requeued.db.notifications.length,
      notification.notice.kind = "reclaimed" ∧ notification.jobId = some "job") ∧
    .terminated "cloud" "i-2" ∈ (World.requeued.reclaim Rack.requeued.site false).2.cloud.calls ∧
    (∃ row ∈ (World.requeued.reclaim Rack.requeued.site false).2.db.jobs.find "job",
      row.state = .allocating) ∧
    ¬ AllOrNothing Rack.requeued.site false World.requeued := by
  have told : ∃ notification ∈ (World.requeued.reclaim Rack.requeued.site false).2.db.notifications.drop
      World.requeued.db.notifications.length,
      notification.notice.kind = "reclaimed" ∧ notification.jobId = some "job" := by decide +kernel
  have left : ∃ row ∈ (World.requeued.reclaim Rack.requeued.site false).2.db.jobs.find "job",
      row.state = .allocating := by decide +kernel
  refine ⟨told, by decide +kernel, left, fun owes => ?_⟩
  obtain ⟨notification, member, kind, named⟩ := told
  obtain ⟨row, found, waiting⟩ := left
  obtain ⟨other, again, reclaimed⟩ := owes.told notification member kind "job" named
  rw [found] at again
  cases again
  rw [waiting] at reclaimed
  cases reclaimed

end GpuBroker.Broker
