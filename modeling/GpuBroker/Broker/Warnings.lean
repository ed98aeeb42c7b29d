/-
This file is the warning before a reclaim.

A warning is looked up over the whole life of a job, and its owner is warned
once. So the last warning is the only one, and it licenses a reclaim in whatever
idle spell the job is later found: it is a warning of the spell it ends in
unless the job has worked in between. In a run in which no job that was warned
about is sampled above the threshold again, every reclaim was warned of in its
own spell and at least the grace period before.
-/
import GpuBroker.Broker.Reclaims

namespace GpuBroker.Broker

open Library

variable {γ : Type}

/-! ### Warnings -/

/-- The kind a warning is filed under. -/
def idleNotification : String := "idle-warning"

/-- The transaction warned of the reclaim that a turn decides on: it told the job's owner, the grace
period is over since, and no sample recorded after it is above the threshold. -/
def WarnsOf (entry : Write × World γ) (turn : IdleVerdict × World γ) : Prop :=
  match entry.1 with
  | .notify warning =>
      warning.jobId = some turn.1.job.jobId ∧ warning.notice.kind = idleNotification ∧
        warning.writtenAt + turn.2.config.idleGrace ≤ turn.2.clock turn.2.asked ∧
        ∀ sample ∈ turn.2.db.samples.drop entry.2.db.samples.length,
          sample.jobId = turn.1.job.jobId →
            sample.gpuPercent ≤ turn.2.config.idleThresholdPercent
  | _ => False

instance (turn : IdleVerdict × World γ) : ∀ entry : Write × World γ, Decidable (WarnsOf entry turn)
  | (.notify warning, before) =>
      inferInstanceAs (Decidable (warning.jobId = some turn.1.job.jobId ∧
        warning.notice.kind = idleNotification ∧
        warning.writtenAt + turn.2.config.idleGrace ≤ turn.2.clock turn.2.asked ∧
        ∀ sample ∈ turn.2.db.samples.drop before.db.samples.length,
          sample.jobId = turn.1.job.jobId →
            sample.gpuPercent ≤ turn.2.config.idleThresholdPercent))
  | (.insertUser _, _) | (.updateUser _, _) | (.suspend _ _ _ _, _) | (.restore _, _)
  | (.create _ _, _) | (.refuse _ _, _) | (.move _ _ _ _ _, _) | (.settle _ _ _ _, _)
  | (.touch _ _ _, _) | (.sampled _ _, _) | (.abandon _ _ _ _ _ _, _) | (.applyPrices _, _) =>
      inferInstanceAs (Decidable False)

/-- A job that was warned about is not sampled above the threshold. -/
def Unbroken (write : Write) (world : World γ) : Prop :=
  match write with
  | .sampled _ samples =>
      ∀ sample ∈ samples, (world.db.lastNotified sample.jobId idleNotification).isSome = true →
        sample.gpuPercent ≤ world.config.idleThresholdPercent
  | _ => True

instance (world : World γ) : ∀ write : Write, Decidable (Unbroken write world)
  | .sampled _ samples =>
      inferInstanceAs (Decidable (∀ sample ∈ samples,
        (world.db.lastNotified sample.jobId idleNotification).isSome = true →
          sample.gpuPercent ≤ world.config.idleThresholdPercent))
  | .insertUser _ | .updateUser _ | .suspend _ _ _ _ | .restore _ | .create _ _ | .refuse _ _
  | .move _ _ _ _ _ | .settle _ _ _ _ | .touch _ _ _ | .notify _ | .abandon _ _ _ _ _ _
  | .applyPrices _ => inferInstanceAs (Decidable True)

/-- The last warning about a job is one of the notifications. -/
theorem lastNotified_mem {db : Db} {id : JobId} {kind : String} {moment : Time}
    (last : db.lastNotified id kind = some moment) :
    ∃ notification ∈ db.notifications, notification.jobId = some id ∧
      notification.notice.kind = kind ∧ notification.writtenAt = moment := by
  obtain ⟨notification, member, written⟩ := List.mem_map.mp (List.mem_of_getLast? last)
  obtain ⟨among, mine⟩ := List.mem_filter.mp member
  exact ⟨notification, among, (of_decide_eq_true mine).1, (of_decide_eq_true mine).2, written⟩

theorem lastNotified_isSome {db : Db} {id : JobId} {kind : String} {notification : Notification}
    (member : notification ∈ db.notifications) (named : notification.jobId = some id)
    (filed : notification.notice.kind = kind) : (db.lastNotified id kind).isSome = true := by
  have among : notification.writtenAt ∈ (db.notifications.filter fun notification =>
      notification.jobId = some id ∧ notification.notice.kind = kind).map Notification.writtenAt :=
    List.mem_map_of_mem (List.mem_filter.mpr ⟨member, decide_eq_true ⟨named, filed⟩⟩)
  unfold Db.lastNotified
  exact List.getLast?_isSome.mpr (List.ne_nil_of_mem among)

/-! ### What transactions tell and record -/

/-- What a transaction tells somebody. -/
def Write.tells : Write → List Notification
  | .notify notification => [notification]
  | _ => []

/-- The samples a transaction records. -/
def Write.records : Write → List Sample
  | .sampled _ samples => samples
  | _ => []

theorem told_apply {world next : World γ} {write : Write} (applied : write.apply world = .ok next) :
    next.db.notifications = world.db.notifications ++ write.tells ∧
      next.db.samples = world.db.samples ++ write.records := by
  obtain ⟨db, written, rfl⟩ := Write.apply_eq applied
  cases write with
  | notify notification =>
      simp only [Write.onDb] at written
      split at written <;> cases written
      exact ⟨rfl, (List.append_nil _).symm⟩
  | sampled job samples =>
      simp only [Write.onDb] at written
      split at written <;> cases written
      exact ⟨(List.append_nil _).symm, rfl⟩
  | create job read =>
      obtain ⟨_, _, rfl⟩ := Db.insertJob_eq written
      exact ⟨(List.append_nil _).symm, (List.append_nil _).symm⟩
  | refuse job refusal =>
      obtain ⟨_, _, rfl⟩ := Db.insertJob_eq written
      exact ⟨(List.append_nil _).symm, (List.append_nil _).symm⟩
  | move current target change now outstanding =>
      obtain ⟨_, _, _, rfl⟩ := Db.moveJob_eq written
      exact ⟨(List.append_nil _).symm, (List.append_nil _).symm⟩
  | touch job columns now =>
      rw [Db.touchJob_eq written]
      exact ⟨(List.append_nil _).symm, (List.append_nil _).symm⟩
  | insertUser user =>
      simp only [Write.onDb] at written
      split at written <;> cases written
      exact ⟨(List.append_nil _).symm, (List.append_nil _).symm⟩
  | updateUser | suspend | restore | settle | abandon | applyPrices =>
      cases written
      exact ⟨(List.append_nil _).symm, (List.append_nil _).symm⟩

/-- A transaction changes no setting of the watch on idle jobs. -/
theorem apply_settings {world next : World γ} {write : Write} (applied : write.apply world = .ok next) :
    next.config.idleThresholdPercent = world.config.idleThresholdPercent ∧
      next.config.idleGrace = world.config.idleGrace := by
  obtain ⟨db, _, rfl⟩ := Write.apply_eq applied
  cases write <;> exact ⟨rfl, rfl⟩

/-! ### The only warning -/

/-- Every warning was written in the run so far, and no sample recorded since is above the threshold. -/
def Warned (past : List (Write × World γ)) (world : World γ) : Prop :=
  ∀ warning ∈ world.db.notifications, warning.notice.kind = idleNotification →
    ∀ id ∈ warning.jobId, ∃ before : World γ, (.notify warning, before) ∈ past ∧
      before.db.samples.length ≤ world.db.samples.length ∧
      ∀ sample ∈ world.db.samples.drop before.db.samples.length, sample.jobId = id →
        sample.gpuPercent ≤ world.config.idleThresholdPercent

theorem Warned.quiet {past : List (Write × World γ)} {world next : World γ} (warned : Warned past world)
    (quiet : Quiet world next) : Warned past next := by
  unfold Warned
  rw [quiet.db, quiet.config]
  exact warned

theorem Warned.concat {past : List (Write × World γ)} {world : World γ} (warned : Warned past world)
    (entry : Write × World γ) : Warned (past ++ [entry]) world := by
  intro warning member filed id named
  obtain ⟨before, written, rest⟩ := warned warning member filed id named
  exact ⟨before, List.mem_append_left _ written, rest⟩

theorem Warned.write {past : List (Write × World γ)} {world next : World γ} {write : Write}
    (warned : Warned past world) (unbroken : Unbroken write world)
    (applied : write.apply world = .ok next) : Warned (past ++ [(write, world)]) next := by
  obtain ⟨told, sampled⟩ := told_apply applied
  intro warning member filed id named
  rw [told] at member
  rw [sampled, (apply_settings applied).1]
  rcases List.mem_append.mp member with earlier | new
  · obtain ⟨before, written, shorter, quiet⟩ := warned warning earlier filed id named
    refine ⟨before, List.mem_append_left _ written, ?_, fun sample among mine => ?_⟩
    · rw [List.length_append]
      exact shorter.trans (Nat.le_add_right _ _)
    · rw [List.drop_append_of_le_length shorter] at among
      rcases List.mem_append.mp among with old | recorded
      · exact quiet sample old mine
      · cases write with
        | sampled job samples =>
            refine unbroken sample recorded ?_
            rw [mine]
            exact lastNotified_isSome earlier named filed
        | insertUser | updateUser | suspend | restore | create | refuse | move | settle | touch
        | notify | abandon | applyPrices => cases recorded
  · cases write with
    | notify notification =>
        cases List.mem_singleton.mp new
        refine ⟨world, List.mem_append_right _ (List.mem_singleton_self _), ?_, fun sample among => ?_⟩
        · rw [List.length_append]
          exact Nat.le_add_right _ _
        · rw [List.drop_append_of_le_length le_rfl, List.drop_length] at among
          cases among
    | insertUser | updateUser | suspend | restore | create | refuse | move | settle | touch
    | sampled | abandon | applyPrices => cases new

theorem warned_run (desk : Desk γ) (config : BrokerConfig) (cloud : γ) (clock : Nat → Time)
    (entries : List (Operation × Nat))
    (unbroken : desk.Allows Unbroken entries (World.new config cloud clock)) :
    Warned (desk.record entries (World.new config cloud clock))
      (desk.after entries (World.new config cloud clock)) := by
  refine Desk.history (runs_unknown desk.site) (Booked.new config cloud clock) unbroken
    (fun warning member => (List.not_mem_nil member).elim) ?_ ?_ ?_
  · exact fun past before after quiet _ warned => warned.quiet quiet
  · exact fun past write before error _ _ _ _ warned => warned.concat _
  · exact fun past write before after _ allowed _ _ applied warned => warned.write allowed applied

/-! ### Verdicts -/

/-- A verdict says when the job's owner was last warned, and when the grace period of that warning is
over. -/
structure Judged (world : World γ) (verdict : IdleVerdict) : Prop where
  notified : verdict.notifiedAt = world.db.lastNotified verdict.job.jobId idleNotification
  grace : verdict.graceEndsAt = verdict.notifiedAt.map (· + world.config.idleGrace)

theorem whole_evaluate {job : Job} {world next : World γ} {verdict : IdleVerdict}
    (ended : (evaluate job).whole world = (.ok verdict, next)) :
    Judged world verdict ∧ next = world.ticked := by
  unfold evaluate at ended
  rw [whole_settings, whole_now, whole_query, whole_query] at ended
  simp only at ended
  split at ended
  · cases ended
    exact ⟨⟨rfl, rfl⟩, rfl⟩
  · split at ended
    · cases ended
      exact ⟨⟨rfl, rfl⟩, rfl⟩
    · rw [whole_query] at ended
      cases known : world.config.gpu job.gpuType with
      | error error =>
          rw [known] at ended
          cases ended
      | ok gpu =>
          rw [known] at ended
          cases ended
          exact ⟨⟨rfl, rfl⟩, rfl⟩

theorem Judged.ticked {world : World γ} {verdict : IdleVerdict} (judged : Judged world.ticked verdict) :
    Judged world verdict :=
  ⟨judged.notified, judged.grace⟩

theorem whole_evaluateAll {jobs : List Job} {world next : World γ} {verdicts : List IdleVerdict}
    (ended : (evaluateAll jobs).whole world = (.ok verdicts, next)) :
    ∀ verdict ∈ verdicts, Judged world verdict := by
  induction jobs generalizing world verdicts with
  | nil =>
      cases ended
      exact fun _ member => (List.not_mem_nil member).elim
  | cons job rest inductionHypothesis =>
      unfold evaluateAll at ended
      obtain ⟨verdict, middle, first, later⟩ := Program.whole_bind_eq_ok ended
      obtain ⟨others, last, second, done⟩ := Program.whole_bind_eq_ok later
      obtain ⟨judged, ticked⟩ := whole_evaluate first
      rw [ticked] at second
      cases done
      intro one member
      rcases List.mem_cons.mp member with rfl | among
      · exact judged
      · exact (inductionHypothesis second one among).ticked

theorem judged_idle {world : World γ} {verdict : IdleVerdict} (member : verdict ∈ world.idle) :
    Judged world verdict := by
  unfold World.idle at member
  split at member
  · next verdicts ended =>
    unfold idleJobs at ended
    rw [whole_query] at ended
    obtain ⟨all, came, later⟩ := Program.ok_of_whole_bind ended
    cases later
    have listed := (List.mem_filter.mp ((List.mergeSort_perm _ _).mem_iff.mp member)).1
    exact whole_evaluateAll (Prod.ext came rfl) verdict listed
  · cases member

/-! ### The turns of a pass -/

/-- The samples and the settings of the watch on idle jobs are as they were. -/
structure Unsampled (world next : World γ) : Prop where
  samples : next.db.samples = world.db.samples
  threshold : next.config.idleThresholdPercent = world.config.idleThresholdPercent
  grace : next.config.idleGrace = world.config.idleGrace

theorem Unsampled.trans {one two three : World γ} (first : Unsampled one two)
    (second : Unsampled two three) : Unsampled one three :=
  ⟨second.samples.trans first.samples, second.threshold.trans first.threshold,
    second.grace.trans first.grace⟩

theorem Quiet.unsampled {world next : World γ} (quiet : Quiet world next) : Unsampled world next :=
  ⟨by rw [quiet.db], by rw [quiet.config], by rw [quiet.config]⟩

section Unsampled

variable {α : Type} {world next : World γ}

theorem unsampled_executing {write : Write} {value : α} (silent : write.records = [])
    (kept : Unsampled world next) : Unsampled world ((executing write value).whole next).2 := by
  rw [whole_executing]
  cases applied : write.apply next with
  | ok after =>
      have settings := apply_settings applied
      refine kept.trans ⟨?_, settings.1, settings.2⟩
      rw [(told_apply applied).2, silent, List.append_nil]
  | error error => exact kept

theorem unsampled_notify {user : UserId} {job : Option JobId} {notice : Notice}
    (kept : Unsampled world next) : Unsampled world ((notify user job notice).whole next).2 := by
  unfold notify
  rw [whole_now]
  exact unsampled_executing rfl (kept.trans next.ticked_quiet.unsampled)

theorem unsampled_appendLog {job : JobId} {line : String} (kept : Unsampled world next) :
    Unsampled world ((appendLog job line).whole next).2 := by
  unfold appendLog
  rw [whole_settings, whole_query]
  simp only
  split
  · exact kept
  · rw [whole_now]
    exact unsampled_executing rfl (kept.trans next.ticked_quiet.unsampled)

theorem unsampled_terminateHeld {site : Site γ} {job : Job} {why : String} (kept : Unsampled world next) :
    Unsampled world ((terminateHeld site job why).whole next).2 := by
  unfold terminateHeld
  split
  · split
    · next backend _ =>
      unfold externally
      rw [whole_external]
      split <;> exact kept.trans (next.called_quiet _).unsampled
    · exact kept
  · exact kept

theorem unsampled_transition {job : Job} {target : JobState} {change : Change}
    (kept : Unsampled world next) : Unsampled world ((transition job target change).whole next).2 := by
  have ticked := kept.trans next.ticked_quiet.unsampled
  unfold transition
  split
  · rw [whole_now]
    split
    · rw [whole_query]
      exact unsampled_executing rfl ticked
    · exact unsampled_executing rfl ticked
  · exact kept

/-- A turn records no sample. -/
theorem unsampled_turn {site : Site γ} {enabled : Bool} {report : ReclaimReport} {verdict : IdleVerdict}
    (kept : Unsampled world next) :
    Unsampled world ((reclaimNext site enabled report verdict).whole next).2 := by
  have looked : Unsampled world ((reclaimable verdict).whole next).2 := by
    rcases (whole_reclaimable verdict next).2 with same | ticked
    · rw [same]
      exact kept
    · rw [ticked]
      exact kept.trans next.ticked_quiet.unsampled
  rw [whole_reclaimNext]
  simp only
  split
  · split
    · refine Program.whole_bind_keeps ?_ fun _ _ kept => kept
      unfold reclaimOne
      simp only
      rw [whole_settings, whole_now]
      refine Program.whole_bind_keeps (unsampled_notify
        (looked.trans (World.ticked_quiet _).unsampled)) fun _ _ told => ?_
      refine Program.whole_bind_keeps (unsampled_appendLog told) fun _ _ logged => ?_
      refine Program.whole_bind_keeps (unsampled_terminateHeld logged) fun _ _ stopped => ?_
      exact Program.whole_bind_keeps (unsampled_transition stopped) fun _ _ moved => moved
    · exact looked
  · exact looked

/-- Every turn of a pass is one of its verdicts, in a world with no more samples. -/
theorem unsampled_turns {site : Site γ} {enabled : Bool} {verdicts : List IdleVerdict}
    (kept : Unsampled world next) : ∀ turn ∈ turns site enabled verdicts next,
      turn.1 ∈ verdicts ∧ Unsampled world turn.2 := by
  induction verdicts generalizing next with
  | nil => exact fun _ member => (List.not_mem_nil member).elim
  | cons verdict rest inductionHypothesis =>
      intro turn member
      rcases List.mem_cons.mp member with rfl | later
      · exact ⟨List.mem_cons_self, kept⟩
      · obtain ⟨among, quiet⟩ := inductionHypothesis (unsampled_turn kept) turn later
        exact ⟨List.mem_cons_of_mem _ among, quiet⟩

end Unsampled

/-- In a run in which no job that was warned about is sampled above the threshold, whatever pass over
the idle jobs comes then, each job it decides to reclaim was warned about at least the grace period
before, and was not sampled above the threshold since. -/
theorem warned_before_reclaim (desk : Desk γ) (config : BrokerConfig) (cloud : γ)
    (clock : Nat → Time) (entries : List (Operation × Nat)) (force : Bool)
    (unbroken : desk.Allows Unbroken entries (World.new config cloud clock)) :
    let world := desk.after entries (World.new config cloud clock)
    ∀ turn ∈ world.turns desk.site force, Decided (world.config.reclaimEnabled || force) turn →
      ∃ entry ∈ desk.record entries (World.new config cloud clock), WarnsOf entry turn := by
  intro world turn member decided
  have booked : Booked world := desk.booked entries (Booked.new config cloud clock)
  obtain ⟨_, _, quiet, _, _⟩ := whole_idleJobs booked
  obtain ⟨verdict, unsampled⟩ := unsampled_turns quiet.unsampled turn member
  obtain ⟨notified, grace⟩ := judged_idle verdict
  obtain ⟨told, beyond⟩ := Bool.and_eq_true_iff.mp decided.2
  cases last : turn.1.notifiedAt with
  | none =>
      rw [last, Option.isSome_none, Bool.and_false] at told
      cases told
  | some moment =>
      rw [last] at notified grace
      obtain ⟨warning, among, named, filed, written⟩ := lastNotified_mem notified.symm
      obtain ⟨before, recorded, _, still⟩ :=
        warned_run desk config cloud clock entries unbroken warning among filed _ named
      refine ⟨_, recorded, named, filed, ?_, ?_⟩
      · rw [grace] at beyond
        rw [unsampled.grace, written]
        exact of_decide_eq_true beyond
      · rw [unsampled.samples, unsampled.threshold]
        exact still

/-! ### Two spells -/

/-- A rack whose machines run, and whose GPUs do nothing. -/
def Rack.asleep : Desk Rack :=
  Rack.measured (fun _ => .running) fun polls => [⟨polls * twelveMinutes, 0, 0⟩]

/-- A job that never works is warned about, and reclaimed. -/
theorem warned_before_reclaim_asleep :
    ∃ turn ∈ (Rack.asleep.after (Operation.opening ++ List.replicate 2 (.tick, 80))
        (World.club .reclaiming)).turns Rack.asleep.site false,
      Decided true turn ∧ ∃ entry ∈ Rack.asleep.record
        (Operation.opening ++ List.replicate 2 (.tick, 80)) (World.club .reclaiming),
          WarnsOf entry turn := by
  have decided : ∃ turn ∈ (Rack.asleep.after (Operation.opening ++ List.replicate 2 (.tick, 80))
      (World.club .reclaiming)).turns Rack.asleep.site false, Decided true turn := by decide +kernel
  obtain ⟨turn, member, ready⟩ := decided
  have unbroken : Rack.asleep.Allows Unbroken (Operation.opening ++ List.replicate 2 (.tick, 80))
      (World.club .reclaiming) := by decide +kernel
  have enabled : (Rack.asleep.after (Operation.opening ++ List.replicate 2 (.tick, 80))
      (World.club .reclaiming)).config.reclaimEnabled = true := by decide +kernel
  have club : World.club .reclaiming =
    World.new .reclaiming ⟨0, 0⟩ fun reading => reading * twelveMinutes := rfl
  rw [club] at member unbroken enabled ⊢
  refine ⟨turn, member, ready, warned_before_reclaim Rack.asleep .reclaiming ⟨0, 0⟩ _ _ false unbroken
    turn member ?_⟩
  rw [enabled]
  exact ready

/-- One minute, the step of a faster clock. -/
def oneMinute : Duration := 60000000

/-- Settings under which five minutes without work are an idle spell. -/
def BrokerConfig.impatient : BrokerConfig :=
  { BrokerConfig.reclaiming with
    idleWindow := 5 * oneMinute
    idleGrace := 2 * oneMinute }

/-- A rack whose GPU does nothing, then works, and then does nothing again. -/
def Rack.waking : Desk Rack :=
  Rack.measured (fun _ => .running) fun polls =>
    match polls with
    | 1 => [⟨12 * oneMinute, 0, 0⟩]
    | 2 => [⟨18 * oneMinute, 90, 0⟩]
    | 3 => [⟨26 * oneMinute, 0, 0⟩]
    | _ => []

/-- The world of the club in which the job has slept, worked and slept. -/
def World.waking : World Rack :=
  Rack.waking.after (Operation.opening ++ List.replicate 4 (.tick, 80))
    (World.new .impatient ⟨0, 0⟩ fun reading => reading * oneMinute)

/-- The job is warned about in its first spell and reclaimed in its second: a pass decides to reclaim
it, and no transaction of the run warned of that. -/
theorem reclaim_without_warning :
    ∃ turn ∈ World.waking.turns Rack.waking.site false, Decided true turn ∧
      ∀ entry ∈ Rack.waking.record (Operation.opening ++ List.replicate 4 (.tick, 80))
          (World.new .impatient ⟨0, 0⟩ fun reading => reading * oneMinute),
        ¬ WarnsOf entry turn := by
  decide +kernel

end GpuBroker.Broker
