/-
This file is what becomes of a job on the fake whose command has completed, when
the process that would record it is stopped and another goes on.

The machine is released before the result is recorded, and a released machine
reports that it is gone. So the record the next process leaves depends on what
the first one left: the job as it was, with its machine; the job recorded; or,
in between, the job as it was and its machine gone.
-/
import GpuBroker.Broker.Looks
import GpuBroker.Broker.Rows
import GpuBroker.Broker.Fake

namespace GpuBroker.Broker

open Library

variable {γ δ : Type}

/-! ### Records -/

/-- What a look at a running job goes by of its record. -/
def Job.footing (job : Job) : JobState × Option String × Option String × Option String :=
  (job.state, job.backend, job.backendHandle, job.cancelRequested)

/-- A job ended in a state. -/
def EndedAs (id : JobId) (state : JobState) (world : World γ) : Prop :=
  ∃ row, world.db.jobs.find id = some row ∧ row.state = state

theorem EndedAs.unique {id : JobId} {one other : JobState} {world : World γ} (first : EndedAs id one world)
    (second : EndedAs id other world) : one = other := by
  obtain ⟨row, found, rfl⟩ := first
  obtain ⟨also, hasAlso, rfl⟩ := second
  cases found.symm.trans hasAlso
  rfl

/-- A note on a job, and a transaction about another one, leave what a look goes by of its record. -/
theorem footing_leaves {write : Write} {id : JobId} (world : World γ)
    (made : write.notes id ∨ ∃ other, other ≠ id ∧ write.about other) :
    ((write.leaves world).db.jobs.find id).map Job.footing = (world.db.jobs.find id).map Job.footing := by
  cases applied : write.apply world with
  | error error => rw [Write.leaves_error applied]
  | ok next =>
      rw [Write.leaves_ok applied]
      cases hasLater : next.db.jobs.find id with
      | none =>
          cases found : world.db.jobs.find id with
          | none => rfl
          | some row =>
              obtain ⟨later, there, _⟩ := (Write.persists applied).jobs id row found
              rw [hasLater] at there
              cases there
      | some later =>
          cases Write.rowStep applied hasLater with
          | inserted fresh new =>
              cases write with
              | create | refuse => exact made.elim False.elim fun ⟨_, _, about⟩ => about.elim
              | insertUser | updateUser | suspend | restore | move | settle | touch | sampled | notify
              | abandon | applyPrices => cases new
          | moved current target change now outstanding row move mine found state after =>
              subst move
              rcases made with notes | ⟨other, differs, about⟩
              · exact notes.elim
              · exact (differs (about.symm.trans mine)).elim
          | touched columns now row touch found after =>
              subst touch after
              rw [found]
              rcases made with notes | ⟨other, differs, about⟩
              · cases columns with
                | output | note => rfl
                | attempt | preemption | checkpoint | pinTier | cancelRequest => exact notes.elim
              · exact (differs about.symm).elim
          | stamped job amount accrued now row settle mine found after =>
              subst after
              rw [found]
              rfl
          | kept found unmoved untouched => rw [found]

/-- A job that has ended stays as it ended. -/
theorem EndedAs.moved {outside : Outside γ} {label : Option Write} {id : JobId} {state : JobState}
    {before after : World γ} (ended : EndedAs id state before) (concluded : state.terminal = true)
    (guarantee : (solitary outside).contract.guarantee label before after) : EndedAs id state after := by
  obtain ⟨row, found, same⟩ := ended
  cases label with
  | none =>
      refine ⟨row, ?_, same⟩
      rw [guarantee.1.db]
      exact found
  | some write =>
      obtain ⟨owes, _, left⟩ := guarantee
      subst left
      cases applied : write.apply before with
      | error error =>
          rw [Write.leaves_error applied]
          exact ⟨row, found, same⟩
      | ok next =>
          rw [Write.leaves_ok applied]
          obtain ⟨later, hasLater, _⟩ := (Write.persists applied).jobs id row found
          refine ⟨later, hasLater, ?_⟩
          cases Write.rowStep applied hasLater with
          | inserted fresh new =>
              rw [found] at fresh
              cases fresh
          | moved current target change now outstanding also move mine hasRow state after =>
              cases found.symm.trans hasRow
              subst move
              have moving : Moving before current target change now outstanding := owes.sound
              have live := (JobState.canTransition_spec moving.legal).1
              rw [← state, same, concluded] at live
              cases live
          | touched columns now also touch hasRow after =>
              cases found.symm.trans hasRow
              rw [after]
              cases columns <;> exact same
          | stamped job amount accrued now also settle mine hasRow after =>
              cases found.symm.trans hasRow
              rw [after]
              exact same
          | kept hasRow _ _ =>
              cases found.symm.trans hasRow
              exact same

/-! ### Courses -/

section Courses

variable {α β : Type} {keeps fails : World γ → Prop} {post : β → World γ → Prop} {world : World γ}

theorem course_externally {call : γ → Except String α × γ} {rest : α → Op γ β} (kept : keeps world)
    (resume : ∀ value, (call world.cloud).1 = .ok value →
      (rest value).Course keeps post fails (world.called (call world.cloud).2))
    (raised : ∀ detail, (call world.cloud).1 = .error detail →
      keeps (world.called (call world.cloud).2) ∧ fails (world.called (call world.cloud).2)) :
    (externally call >>= rest).Course keeps post fails world := by
  rw [externally_bind]
  refine Program.Course.quietly kept ?_
  split
  · next value came => exact resume value came
  · next detail came => exact raised detail came

theorem course_executing {write : Write} {value : β} (here : keeps world)
    (committed : ∀ next, write.apply world = .ok next → keeps next ∧ post value next)
    (raised : ∀ error, write.apply world = .error error → fails world) :
    (executing write value).Course keeps post fails world := by
  refine ⟨here, ?_⟩
  simp only
  cases applied : write.apply world with
  | ok next => exact committed next applied
  | error error => exact ⟨here, raised error applied⟩

/-- The move of a job that ends it is made: its row is in the state it is moved from, and it gives its
machine up. -/
theorem course_transition {current row : Job} {target : JobState} {change : Change}
    (legal : current.state.canTransition target = true) (concluded : target.terminal = true)
    (clears : change.clearHandle = true) (found : world.db.jobs.find current.jobId = some row)
    (state : row.state = current.state) (here : keeps world) (later : keeps world.ticked)
    (last : ∀ next, EndedAs current.jobId target next → keeps next) :
    (transition current target change).Course keeps (fun _ => EndedAs current.jobId target) fails world := by
  unfold transition
  rw [if_pos legal]
  refine ⟨here, ?_⟩
  show Program.Course _ _ _ (if target.terminal = true then _ else _) world.ticked
  rw [if_pos concluded]
  refine ⟨later, course_executing later (fun next applied => ?_) fun error applied => ?_⟩
  · obtain ⟨after, hasAfter, _⟩ := (Write.persists applied).jobs current.jobId row found
    have made : EndedAs current.jobId target next := by
      refine ⟨after, hasAfter, ?_⟩
      cases Write.rowStep applied hasAfter with
      | inserted fresh new => cases new
      | moved held aimed asked moment holding its same mine hasRow was after =>
          cases same
          rw [after]
          rfl
      | touched columns moment its touch => cases touch
      | stamped job amount accrued moment its settle => cases settle
      | kept hasRow unmoved untouched => exact absurd unmoved (by simp [Write.moved])
    exact ⟨last next made, made⟩
  · have ticked : world.ticked.db.jobs.find current.jobId = some row := found
    have held := move_rolledBack ticked state applied
    have freed : (current.movedTo target change (world.clock world.asked)).backendHandle = none := by
      show (if change.clearHandle = true then none else _) = none
      rw [if_pos clears]
    rw [freed] at held
    cases held

end Courses

namespace Rehearsal

variable {rehearsal : Rehearsal δ} {id : JobId} {handle : String} {world : World (Simulation δ)}

/-! ### A look at a job -/

/-- An access leaves what a look goes by of a record, and spares a machine. -/
structure Stays (id : JobId) (handle : String) (before after : World (Simulation δ)) : Prop where
  row : (after.db.jobs.find id).map Job.footing = (before.db.jobs.find id).map Job.footing
  machine : Simulation.Spares handle before.cloud after.cloud

/-- The habit of a process that leaves a job and its machine to another look. -/
def habit (id : JobId) (handle : String) : Habit (Simulation δ) where
  owes := fun _ => Stays id handle
  calls := Simulation.Spares handle
  makes := fun write => write.notes id ∨ ∃ other, other ≠ id ∧ write.about other
  rests := fun world => ⟨rfl, .refl handle world.cloud⟩
  reads := fun world => ⟨rfl, .refl handle world.cloud⟩
  serves := fun _ _ spares => ⟨rfl, spares⟩
  writes := by
    intro write world made
    refine ⟨footing_leaves world made, ?_⟩
    have same : (write.leaves world).cloud = world.cloud := by
      unfold Write.leaves
      split
      · next applied => exact apply_cloud applied
      · rfl
    rw [same]
    exact .refl handle world.cloud

/-- The fake is the backend of its name. -/
theorem backend_fake (rehearsal : Rehearsal δ) :
    rehearsal.site.backend rehearsal.fake.name = some rehearsal.fake.served := by
  unfold Site.backend site
  rw [List.find?_append, List.find?_cons_of_pos (by simp [FakeBackend.served])]
  have none : (rehearsal.ahead.map Backend.offstage).find?
      (fun backend => backend.name = rehearsal.fake.name) = none := by
    refine List.find?_eq_none.mpr fun backend member => ?_
    obtain ⟨other, known, rfl⟩ := List.mem_map.mp member
    exact fun same => rehearsal.distinct other (List.mem_append_left _ known) (of_decide_eq_true same)
  rw [none]
  rfl

/-- A backend of the site is the fake or one of other capacity. -/
theorem backend_cases {backend : Backend (Simulation δ)} (member : backend ∈ rehearsal.site.backends) :
    backend = rehearsal.fake.served ∨ ∃ other : Backend δ, backend = other.offstage := by
  rcases List.mem_append.mp member with ahead | rest
  · obtain ⟨other, _, rfl⟩ := List.mem_map.mp ahead
    exact Or.inr ⟨other, rfl⟩
  · rcases List.mem_cons.mp rest with rfl | behind
    · exact Or.inl rfl
    · obtain ⟨other, _, rfl⟩ := List.mem_map.mp behind
      exact Or.inr ⟨other, rfl⟩

theorem aside_spares {α : Type} (call : δ → α × δ) (simulation : Simulation δ) :
    Simulation.Spares handle simulation (Simulation.aside call simulation).2 :=
  ⟨rfl, le_rfl⟩

theorem attends_offstage (other : Backend δ) (machine : String) :
    (habit id handle).Attends other.offstage machine where
  start := fun _ => aside_spares _
  poll := aside_spares _
  fetchLogs := fun _ => aside_spares _
  sampleUtilization := aside_spares _
  terminate := fun _ => aside_spares _

theorem fetchLogs_spares (machine : String) : ∀ after cloud, (habit id handle).calls cloud
    (rehearsal.fake.served.fetchLogs machine after cloud).2 :=
  fun _ _ => (spares_whole spares_fetchLogs).1

theorem sampleUtilization_spares (machine : String) : ∀ cloud, (habit id handle).calls cloud
    (rehearsal.fake.served.sampleUtilization machine cloud).2 :=
  fun _ => (spares_whole spares_sampleUtilization).1

theorem attends_served {machine : String} (differs : machine ≠ handle) :
    (habit id handle).Attends rehearsal.fake.served machine where
  start := fun _ cloud => .refl handle cloud
  poll := fun _ => (spares_whole spares_poll).1
  fetchLogs := fetchLogs_spares machine
  sampleUtilization := sampleUtilization_spares machine
  terminate := fun _ _ => (spares_whole (spares_terminate differs)).1

theorem latest_spares : ∀ latest ∈ rehearsal.site.latest, ∀ job cloud,
    (habit id handle).calls cloud (latest job cloud).2 := by
  intro latest member job cloud
  obtain ⟨known, _, rfl⟩ := Option.map_eq_some_iff.mp member
  exact aside_spares _ cloud

/-- A job is on another machine than one of the fake. -/
def Elsewhere (rehearsal : Rehearsal δ) (handle : String) (job : Job) : Prop :=
  job.backend = some rehearsal.fake.name → job.backendHandle ≠ some handle

/-- A look at another job leaves a job and its machine alone. -/
theorem yields_other {job : Job} {now : Time} (differs : job.jobId ≠ id)
    (elsewhere : rehearsal.Elsewhere handle job) :
    (habit id handle).Yields (advance rehearsal.site job now) fun _ => True := by
  have permits : (habit id handle : Habit (Simulation δ)).regime.Permits job :=
    Habit.permitting fun write about => Or.inr ⟨job.jobId, differs, about⟩
  refine yields_advance permits (fun latest member => latest_spares latest member _)
    fun backend machine found placed => Habit.Attends.regime ?_
  obtain ⟨member, named⟩ := Site.backend_mem found
  rcases backend_cases member with rfl | ⟨other, rfl⟩
  · refine attends_served fun same => ?_
    have sited : job.backend = some rehearsal.fake.name := by
      cases backend : job.backend with
      | none =>
          rw [backend] at named
          exact (rehearsal.named named).elim
      | some name =>
          rw [backend] at named
          exact congrArg some named.symm
    exact elsewhere sited (same ▸ placed)
  · exact attends_offstage other machine

/-- A part that keeps to the habit keeps on its course what such accesses keep. -/
theorem course_habit {α : Type} {program : Op (Simulation δ) α} {post : α → Prop}
    {holds : World (Simulation δ) → Prop} (yields : (habit id handle).Yields program post)
    (kept : ∀ before after, Stays id handle before after → holds before → holds after)
    (start : holds world) : program.Course holds (fun value _ => post value) holds world := by
  have course := (yields world).course (fun _ _ => trivial)
    (fun _ before after _ stays => kept before after stays) trivial start
  refine course.weaken (fun _ both => both.2) (fun _ _ _ holds => holds) fun _ both _ => both.2

/-- A record is what a copy of it is to a look. -/
def Footed (job : Job) (world : World (Simulation δ)) : Prop :=
  (world.db.jobs.find job.jobId).map Job.footing = some job.footing

/-- A record is as it was, and the machine on it is gone. -/
def Stranded (job : Job) (handle : String) (world : World (Simulation δ)) : Prop :=
  Footed job world ∧ world.cloud.Gone handle

theorem Stays.footed {job : Job} {before after : World (Simulation δ)}
    (stays : Stays job.jobId handle before after) (footed : Footed job before) : Footed job after :=
  stays.row.trans footed

theorem Stays.stranded {job : Job} {before after : World (Simulation δ)}
    (stays : Stays job.jobId handle before after) (stranded : Stranded job handle before) :
    Stranded job handle after :=
  ⟨stays.footed stranded.1, stays.machine.gone stranded.2⟩

theorem Stays.ended {state : JobState} {before after : World (Simulation δ)}
    (stays : Stays id handle before after) (ended : EndedAs id state before) : EndedAs id state after := by
  obtain ⟨row, found, same⟩ := ended
  have footing := stays.row
  rw [found] at footing
  obtain ⟨later, hasLater, alike⟩ := Option.map_eq_some_iff.mp footing
  exact ⟨later, hasLater, (congrArg Prod.fst alike).trans same⟩

/-- An active job on a machine of the fake that nobody asked to stop. -/
structure Aboard (rehearsal : Rehearsal δ) (job : Job) (handle : String) : Prop where
  active : job.state.active = true
  sited : job.backend = some rehearsal.fake.name
  placed : job.backendHandle = some handle
  uncancelled : truthy job.cancelRequested = none

/-- What holds of a job and its machine, and what a poll then says, as long as nobody acts on it. -/
structure Awaits (rehearsal : Rehearsal δ) (job : Job) (handle : String) (status : BackendStatus)
    (holds : World (Simulation δ) → Prop) : Prop where
  kept : ∀ before after, Stays job.jobId handle before after → holds before → holds after
  footed : ∀ world, holds world → Footed job world
  polls : ∀ world, holds world → Simulated.Spares handle (rehearsal.fake.poll handle)
    (fun observation => observation.status = status) world.cloud

/-- Where a pass can be stopped that records what a poll says of a job. -/
def Stage (job : Job) (handle : String) (status : BackendStatus) (holds : World (Simulation δ) → Prop)
    (world : World (Simulation δ)) : Prop :=
  holds world ∨ Stranded job handle world ∨ EndedAs job.jobId (stateFor status) world

variable {job : Job} {status : BackendStatus} {holds : World (Simulation δ) → Prop}

/-- A part of a look before its end. -/
theorem course_part {α : Type} {program : Op (Simulation δ) α} {post : α → Prop}
    (awaits : rehearsal.Awaits job handle status holds)
    (yields : (habit job.jobId handle).Yields program post) (start : holds world) :
    program.Course (Stage job handle status holds) (fun value last => post value ∧ holds last) holds world :=
  (course_habit yields awaits.kept start).weaken (fun _ => Or.inl) (fun _ _ kept post => ⟨post, kept⟩)
    fun _ kept _ => kept

/-- The end of a look: the machine is released, and then the result is recorded. -/
theorem course_finish {drained : Job} {observation : Observation} {outcome : Outcome}
    (aboard : rehearsal.Aboard job handle) (awaits : rehearsal.Awaits job handle status holds)
    (ends : status = .completed ∨ status = .gone) (same : drained.jobId = job.jobId)
    (alike : drained.state = job.state) (start : holds world) :
    (finish drained rehearsal.fake.served handle (stateFor status) observation outcome).Course
      (Stage job handle status holds) (fun _ => EndedAs job.jobId (stateFor status)) holds world := by
  obtain ⟨released, answered, gone⟩ := terminate_gone handle
    (let reached := (stateFor status).text.toLower; s!"job {reached}") world.cloud
  refine course_externally (Or.inl start) (fun _ _ => ?_) fun detail raised => ?_
  · have stopped : (rehearsal.fake.served.terminate handle _ world.cloud).2 = released :=
      congrArg Prod.snd answered
    rw [stopped]
    have stranded : Stranded job handle (world.called released) := ⟨awaits.footed world start, gone⟩
    obtain ⟨row, found, footing⟩ := Option.map_eq_some_iff.mp (awaits.footed world start)
    have found : (world.called released).db.jobs.find drained.jobId = some row := by
      rw [same]
      exact found
    have state : row.state = drained.state := (congrArg Prod.fst footing).trans alike.symm
    have legal : drained.state.canTransition (stateFor status) = true := by
      have active := aboard.active
      rw [alike]
      revert active
      rcases ends with rfl | rfl <;> cases job.state <;> decide
    have concluded : (stateFor status).terminal = true := by rcases ends with rfl | rfl <;> rfl
    let change : Change :=
      { reason := .reported observation.status observation.detail
        exitCode := observation.exitCode
        clearHandle := true }
    have clears : change.clearHandle = true := rfl
    have moves : (transition drained (stateFor status) change).Course (Stage job handle status holds)
        (fun _ => EndedAs drained.jobId (stateFor status)) holds (world.called released) :=
      course_transition legal concluded clears found state (Or.inr (Or.inl stranded)) (Or.inr (Or.inl stranded))
        fun _ ended => Or.inr (Or.inr (same ▸ ended))
    exact moves.bind fun _ _ kept ended => ⟨kept, same ▸ ended⟩
  · have raised : ((FakeBackend.terminate handle _).whole world.cloud).1 = .error detail := raised
    rw [answered] at raised
    cases raised

/-- A look at a job whose machine answers that its command completed, or that it is gone: it is left as it
was, or the machine was released and the result is not recorded, or it is. -/
theorem course_advance {now : Time} (aboard : rehearsal.Aboard job handle)
    (awaits : rehearsal.Awaits job handle status holds) (ends : status = .completed ∨ status = .gone)
    (start : holds world) :
    (advance rehearsal.site job now).Course (Stage job handle status holds)
      (fun _ => EndedAs job.jobId (stateFor status)) holds world := by
  have found : rehearsal.site.backend (job.backend.getD "") = some rehearsal.fake.served := by
    rw [aboard.sited]
    exact rehearsal.backend_fake
  have noted : (habit job.jobId handle : Habit (Simulation δ)).regime.Notes job.jobId :=
    Habit.noting fun _ => Or.inl
  unfold advance
  rw [found, aboard.placed]
  simp only
  refine (course_part awaits (yields_settleAccrued noted now) start).bind fun settled here _ both => ?_
  rw [aboard.uncancelled]
  simp only
  have spares := spares_whole (awaits.polls here both.2)
  have polled : holds (here.called (rehearsal.fake.served.poll handle here.cloud).2) :=
    awaits.kept here _ ⟨rfl, spares.1⟩ both.2
  refine course_externally (Or.inl both.2) (fun observation came => ?_) fun detail _ => ?_
  · have told : observation.status = status := spares.2 observation came
    refine (course_part awaits (yields_drainLogs noted (fetchLogs_spares handle) aboard.placed)
      polled).bind fun drained _ _ both => ?_
    obtain ⟨cursor, same⟩ := both.1
    have its : drained.jobId = job.jobId := by rw [same]
    have site : drained.backendHandle = some handle := by
      rw [same]
      exact aboard.placed
    have also : (habit job.jobId handle : Habit (Simulation δ)).regime.Notes drained.jobId := by
      rw [its]
      exact noted
    refine (course_part awaits (yields_sample also (sampleUtilization_spares handle) site) both.2).bind fun _ _ _ both => ?_
    have unready : observation.status ≠ .ready := by
      rw [told]
      rcases ends with rfl | rfl <;> decide
    have unlost : stateFor observation.status ≠ .preempted := by
      rw [told]
      rcases ends with rfl | rfl <;> decide
    have concluded : (stateFor observation.status).terminal = true := by
      rw [told]
      rcases ends with rfl | rfl <;> rfl
    rw [if_neg unready, if_neg unlost, if_pos concluded, told]
    exact course_finish aboard awaits ends its (by rw [same]) both.2
  · exact ⟨Or.inl polled, polled⟩

/-- A look at another job keeps what nobody acts on. -/
theorem course_other {kept : World (Simulation δ) → Prop} {other : Job} {now : Time}
    (differs : other.jobId ≠ id) (elsewhere : rehearsal.Elsewhere handle other)
    (stays : ∀ before after, Stays id handle before after → kept before → kept after)
    (start : kept world) : (advance rehearsal.site other now).Course kept (fun _ => kept) kept world :=
  (course_habit (yields_other differs elsewhere) stays start).weaken (fun _ kept => kept)
    (fun _ _ kept _ => kept) fun _ kept _ => kept

/-! ### A pass -/

/-- A pass of a process that is alone is safe. -/
theorem safe_pass {site : Site γ} {world : World γ} :
    (solitary (Outside.unknown : Outside γ)).Safe (tick site) (fun _ _ => True) world :=
  safe_tick (runs_unknown site) ⟨fun _ _ _ _ _ => trivial, fun _ _ _ => trivial, fun _ _ => trivial⟩
    (fun _ _ => trivial) (sole_alone trivial) fun _ _ _ => trivial

/-- What is left of a pass of a process that is alone keeps the books, and leaves a job as it ended. -/
theorem course_ended {α : Type} {program : Op γ α} {world : World γ} {state : JobState}
    (safe : (solitary (Outside.unknown : Outside γ)).Safe program (fun _ _ => True) world)
    (booked : Booked world) (concluded : state.terminal = true) (ended : EndedAs id state world) :
    program.Course (EndedAs id state) (fun _ => EndedAs id state) (EndedAs id state) world :=
  (safe.course (fun _ _ => trivial) (fun _ _ _ _ guarantee ended => ended.moved concluded guarantee) booked
    ended).weaken (fun _ both => both.2) (fun _ _ both _ => both.2) fun _ both _ => both.2

/-- What is ahead of a pass that is to record a job: the job as it was is among the jobs to look at, or it
has ended and is not. -/
structure Ahead (rehearsal : Rehearsal δ) (job : Job) (handle : String) (status : BackendStatus)
    (holds : World (Simulation δ) → Prop) (items : List Job) (world : World (Simulation δ)) : Prop where
  distinct : (items.map Job.jobId).Nodup
  elsewhere : ∀ other ∈ items, other.jobId ≠ job.jobId → rehearsal.Elsewhere handle other
  stands : holds world ∧ job ∈ items ∨
    EndedAs job.jobId (stateFor status) world ∧ ∀ other ∈ items, other.jobId ≠ job.jobId

theorem course_advanceOne {now : Time} {report : TickReport} {item : Job} {items : List Job}
    (aboard : rehearsal.Aboard job handle) (awaits : rehearsal.Awaits job handle status holds)
    (ends : status = .completed ∨ status = .gone)
    (ahead : rehearsal.Ahead job handle status holds (item :: items) world) :
    (advanceOne rehearsal.site now report item).Course (Stage job handle status holds)
      (fun _ => rehearsal.Ahead job handle status holds items)
      (fun last => holds last ∨ EndedAs job.jobId (stateFor status) last) world := by
  obtain ⟨fresh, distinct⟩ := List.nodup_cons.mp ahead.distinct
  have elsewhere : ∀ other ∈ items, other.jobId ≠ job.jobId → rehearsal.Elsewhere handle other :=
    fun other member => ahead.elsewhere other (List.mem_cons_of_mem _ member)
  rcases ahead.stands with ⟨start, member⟩ | ⟨ended, others⟩
  · by_cases mine : item.jobId = job.jobId
    · have same : item = job := by
        rcases List.mem_cons.mp member with same | later
        · exact same.symm
        · exact (fresh (mine ▸ List.mem_map_of_mem later)).elim
      subst same
      refine ((course_advance aboard awaits ends start).weaken (fun _ kept => kept)
        (fun _ _ _ ended => ended) fun _ _ failed => Or.inl failed).bind fun _ _ kept ended => ?_
      exact ⟨kept, distinct, elsewhere, Or.inr ⟨ended, fun other later same =>
        fresh (same ▸ List.mem_map_of_mem later)⟩⟩
    · have later : job ∈ items :=
        (List.mem_cons.mp member).resolve_left fun same => mine (congrArg _ same.symm)
      refine ((course_other mine (ahead.elsewhere item List.mem_cons_self mine) awaits.kept start).weaken
        (fun _ => Or.inl) (fun _ _ _ kept => kept) fun _ _ failed => Or.inl failed).bind
          fun _ _ stage kept => ?_
      exact ⟨stage, distinct, elsewhere, Or.inl ⟨kept, later⟩⟩
  · have differs := others item List.mem_cons_self
    have stays : ∀ before after : World (Simulation δ), Stays job.jobId handle before after →
        EndedAs job.jobId (stateFor status) before → EndedAs job.jobId (stateFor status) after :=
      fun _ _ stays ended => stays.ended ended
    refine ((course_other differs (ahead.elsewhere item List.mem_cons_self differs) stays ended).weaken
        (fun _ ended => Or.inr (Or.inr ended)) (fun _ _ _ ended => ended) fun _ _ ended => Or.inr ended).bind
          fun _ _ stage ended => ?_
    exact ⟨stage, distinct, elsewhere, Or.inr ⟨ended, fun other later =>
      others other (List.mem_cons_of_mem _ later)⟩⟩

/-- A pass over a job whose machine answers that its command completed, or that it is gone. -/
theorem course_tick (booked : Booked world) (aboard : rehearsal.Aboard job handle)
    (awaits : rehearsal.Awaits job handle status holds) (ends : status = .completed ∨ status = .gone)
    (found : world.db.jobs.find job.jobId = some job)
    (elsewhere : ∀ other ∈ world.db.activeJobs, other.jobId ≠ job.jobId →
      rehearsal.Elsewhere handle other)
    (start : holds world) :
    (tick rehearsal.site).Course (Stage job handle status holds)
      (fun _ => EndedAs job.jobId (stateFor status))
      (fun last => holds last ∨ EndedAs job.jobId (stateFor status) last) world := by
  have concluded : (stateFor status).terminal = true := by rcases ends with rfl | rfl <;> rfl
  have ticked : holds world.ticked := awaits.kept world _ ⟨rfl, .refl handle world.cloud⟩ start
  have copies : (solitary (Outside.unknown : Outside (Simulation δ))).Copies JobState.active
      world.db.activeJobs world := copies_listJobs booked
  have listed : job ∈ world.db.activeJobs := Db.mem_listJobs found aboard.active
  have safe : (solitary (Outside.unknown : Outside (Simulation δ))).Safe (tick rehearsal.site)
      (fun _ _ => True) world := safe_pass
  obtain ⟨_, _, asked⟩ := safe world rfl booked fun _ => nofun
  obtain ⟨kept, _, rest⟩ := asked _ rfl (booked.quiet rfl world.ticked_quiet.persists) fun _ => nofun
  have rest : (solitary (Outside.unknown : Outside (Simulation δ))).Safe
      (world.db.activeJobs.foldlM (advanceOne rehearsal.site (world.clock world.asked)) {} >>=
        dispatch rehearsal.site (world.clock world.asked)) (fun _ _ => True) world.ticked := rest
  have books := rest.split.course (fun _ _ => trivial) (fun _ _ _ _ _ _ => trivial) kept trivial
  refine ⟨Or.inl start, Or.inl ticked, ?_⟩
  have loop : (world.db.activeJobs.foldlM (advanceOne rehearsal.site (world.clock world.asked)) {}).Course
      (Stage job handle status holds) (fun _ => rehearsal.Ahead job handle status holds [])
      (fun last => holds last ∨ EndedAs job.jobId (stateFor status) last) world.ticked :=
    Program.Course.foldlM (rehearsal.Ahead job handle status holds)
      (fun item items report current _ ahead => course_advanceOne aboard awaits ends ahead) (Or.inl ticked)
      ⟨copies.distinct, elsewhere, Or.inl ⟨ticked, listed⟩⟩
  have walked : (world.db.activeJobs.foldlM (advanceOne rehearsal.site (world.clock world.asked)) {}).Course
      (Stage job handle status holds)
      (fun report last => rehearsal.Ahead job handle status holds [] last ∧ Booked last ∧
        (solitary (Outside.unknown : Outside (Simulation δ))).Safe
          (dispatch rehearsal.site (world.clock world.asked) report) (fun _ _ => True) last)
      (fun last => holds last ∨ EndedAs job.jobId (stateFor status) last) world.ticked :=
    (loop.both books).weaken (fun _ both => both.1) (fun _ _ kept both => ⟨both.1, kept.2.1, both.2⟩)
      fun _ _ both => both.1
  refine walked.bind fun report last _ ⟨ahead, booked, safe⟩ => ?_
  have ended : EndedAs job.jobId (stateFor status) last := by
    rcases ahead.stands with ⟨_, member⟩ | ⟨ended, _⟩
    · exact (List.not_mem_nil member).elim
    · exact ended
  exact (course_ended safe booked concluded ended).weaken (fun _ ended => Or.inr (Or.inr ended))
    (fun _ _ _ ended => ended) fun _ _ ended => Or.inr ended

/-! ### Runs -/

/-- A job is on a machine of the fake of which something holds. -/
def Holding (rehearsal : Rehearsal δ) (id : JobId) (handle : String) (machine : Simulation δ → Prop)
    (world : World (Simulation δ)) : Prop :=
  ∃ job, world.db.jobs.find id = some job ∧ rehearsal.Aboard job handle ∧ machine world.cloud

/-- The command of an active job has completed, and nothing was made of it yet. -/
abbrev Finished (rehearsal : Rehearsal δ) (id : JobId) (handle : String) : World (Simulation δ) → Prop :=
  rehearsal.Holding id handle (Simulation.Completes rehearsal.fake handle)

/-- A job is still active, and its machine is gone. -/
abbrev Lost (rehearsal : Rehearsal δ) (id : JobId) (handle : String) : World (Simulation δ) → Prop :=
  rehearsal.Holding id handle (Simulation.Gone handle)

/-- What every run keeps of the database: its books, and machines on one record each. -/
def Kept (world : World (Simulation δ)) : Prop := Booked world ∧ world.db.Unshared

theorem Aboard.row {row : Job} (aboard : rehearsal.Aboard job handle) (same : row.footing = job.footing) :
    rehearsal.Aboard row handle where
  active := (congrArg (fun footing => footing.1.active) same).trans aboard.active
  sited := (congrArg (fun footing => footing.2.1) same).trans aboard.sited
  placed := (congrArg (fun footing => footing.2.2.1) same).trans aboard.placed
  uncancelled := (congrArg (fun footing => truthy footing.2.2.2) same).trans aboard.uncancelled

theorem Holding.of_footed {machine : Simulation δ → Prop} (aboard : rehearsal.Aboard job handle)
    (footed : Footed job world) (holds : machine world.cloud) :
    rehearsal.Holding job.jobId handle machine world := by
  obtain ⟨row, found, same⟩ := Option.map_eq_some_iff.mp footed
  exact ⟨row, found, aboard.row same, holds⟩

/-- No other active job is on the machine of a job. -/
theorem Kept.elsewhere (kept : Kept world) (aboard : rehearsal.Aboard job handle)
    (found : world.db.jobs.find job.jobId = some job) :
    ∀ other ∈ world.db.activeJobs, other.jobId ≠ job.jobId → rehearsal.Elsewhere handle other := by
  intro other member differs sited placed
  obtain ⟨hasOther, _⟩ := Db.find_of_listJobs member
  refine differs (kept.2 _ _ other job hasOther found ?_ ?_ ?_ ?_)
  · rw [sited]
    rfl
  · rw [placed]
    rfl
  · rw [sited, aboard.sited]
  · rw [placed, aboard.placed]

/-- A safe program of a process that is alone keeps what every run keeps. -/
theorem Kept.course {α : Type} {program : Op (Simulation δ) α} (kept : Kept world)
    (safe : (solitary (Outside.unknown : Outside (Simulation δ))).Safe program (fun _ _ => True) world) :
    program.Course Kept (fun _ _ => True) (fun _ => True) world := by
  refine safe.course (fun _ _ => trivial) (fun label before after _ guarantee unshared => ?_) kept.1 kept.2
  cases label with
  | none =>
      rw [guarantee.1.db]
      exact unshared
  | some write =>
      obtain ⟨owes, _, left⟩ := guarantee
      subst left
      cases applied : write.apply before with
      | error error => rw [Write.leaves_error applied]; exact unshared
      | ok next => rw [Write.leaves_ok applied]; exact unshared.apply owes.sound applied

theorem Kept.restarted (kept : Kept world) (rest : δ) : Kept (rehearsal.restarted rest world) :=
  ⟨kept.1.quiet rfl (Quiet.persists ⟨rfl, rfl, rfl, le_rfl⟩), kept.2⟩

/-- A part of a run: an operation, after how many accesses its process stops, and, where another process
goes on, what other capacity it finds. -/
abbrev Stint (δ : Type) := Operation × Nat × Option δ

/-- What a part of a run leaves. -/
def stint (rehearsal : Rehearsal δ) (world : World (Simulation δ)) : Stint δ → World (Simulation δ)
  | (operation, length, none) => ((operation.program rehearsal.site rehearsal.text).run length world).2
  | (operation, length, some rest) =>
      rehearsal.restarted rest ((operation.program rehearsal.site rehearsal.text).run length world).2

/-- What a run leaves. -/
def after (rehearsal : Rehearsal δ) (stints : List (Stint δ)) (world : World (Simulation δ)) :
    World (Simulation δ) :=
  stints.foldl rehearsal.stint world

theorem Kept.after (kept : Kept world) (stints : List (Stint δ)) : Kept (rehearsal.after stints world) := by
  induction stints generalizing world with
  | nil => exact kept
  | cons stint stints inductionHypothesis =>
      refine inductionHypothesis ?_
      obtain ⟨operation, length, restart⟩ := stint
      have safe : (solitary (Outside.unknown : Outside (Simulation δ))).Safe
          (operation.program rehearsal.site rehearsal.text) (fun _ _ => True) world :=
        safe_operation operation (runs_unknown rehearsal.site) (fun _ => trivial) (fun _ _ => trivial)
          (sole_alone trivial) kept.1
      have course := kept.course safe
      cases restart with
      | none => exact course.run length
      | some rest => exact (course.run length).restarted rest

theorem Kept.new (config : BrokerConfig) (cloud : Simulation δ) (clock : Nat → Time) :
    Kept (World.new config cloud clock) :=
  ⟨Booked.new config cloud clock, fun _ _ _ _ => nofun⟩

/-- A pass over a job whose machine answers that its command completed, or that it is gone. -/
theorem course_holding {machine : Simulation δ → Prop} (kept : Kept world)
    (spared : ∀ before after : Simulation δ, Simulation.Spares handle before after →
      machine before → machine after)
    (polls : ∀ simulation, machine simulation → Simulated.Spares handle (rehearsal.fake.poll handle)
      (fun observation => observation.status = status) simulation)
    (ends : status = .completed ∨ status = .gone) (holding : rehearsal.Holding id handle machine world) :
    (tick rehearsal.site).Course
      (fun last => rehearsal.Holding id handle machine last ∨ rehearsal.Lost id handle last ∨
        EndedAs id (stateFor status) last)
      (fun _ => EndedAs id (stateFor status))
      (fun last => rehearsal.Holding id handle machine last ∨ EndedAs id (stateFor status) last) world := by
  obtain ⟨job, found, aboard, holds⟩ := holding
  obtain rfl := Table.find_key found
  have awaits : rehearsal.Awaits job handle status
      fun current => Footed job current ∧ machine current.cloud :=
    ⟨fun before after stays both => ⟨stays.footed both.1, spared _ _ stays.machine both.2⟩,
      fun _ both => both.1, fun _ both => polls _ both.2⟩
  have footed : Footed job world := by
    unfold Footed
    rw [found]
    rfl
  refine (course_tick kept.1 aboard awaits ends found (kept.elsewhere aboard found) ⟨footed, holds⟩).weaken
    (fun current stage => ?_) (fun _ _ _ ended => ended) fun current _ failed => ?_
  · rcases stage with both | stranded | ended
    · exact Or.inl (Holding.of_footed aboard both.1 both.2)
    · exact Or.inr (Or.inl (Holding.of_footed aboard stranded.1 stranded.2))
    · exact Or.inr (Or.inr ended)
  · exact failed.imp_left fun both => Holding.of_footed aboard both.1 both.2

/-- What passes leave, one after another. -/
def passes (rehearsal : Rehearsal δ) (count : Nat) (world : World (Simulation δ)) : World (Simulation δ) :=
  rehearsal.passed^[count] world

theorem passes_succ (count : Nat) : rehearsal.passes (count + 1) world =
    rehearsal.passes count (rehearsal.passed world) := rfl

theorem Kept.passed (kept : Kept world) : Kept (rehearsal.passed world) :=
  (kept.course safe_pass).whole.1

/-- A job that has ended is as it ended after any number of passes. -/
theorem EndedAs.passes {state : JobState} (concluded : state.terminal = true) (kept : Kept world)
    (ended : EndedAs id state world) (count : Nat) : EndedAs id state (rehearsal.passes count world) := by
  induction count generalizing world with
  | zero => exact ended
  | succ count inductionHypothesis =>
      rw [passes_succ]
      exact inductionHypothesis kept.passed (course_ended safe_pass kept.1 concluded ended).whole.1

/-- After any number of passes a job that waits for the answer of its machine waits for it still, or ended
as the machine answered; it ended when one of the passes came to a report. -/
theorem Holding.passes {machine : Simulation δ → Prop} (kept : Kept world)
    (spared : ∀ before after : Simulation δ, Simulation.Spares handle before after →
      machine before → machine after)
    (polls : ∀ simulation, machine simulation → Simulated.Spares handle (rehearsal.fake.poll handle)
      (fun observation => observation.status = status) simulation)
    (ends : status = .completed ∨ status = .gone) (holding : rehearsal.Holding id handle machine world)
    (count : Nat) :
    (rehearsal.Holding id handle machine (rehearsal.passes count world) ∨
        EndedAs id (stateFor status) (rehearsal.passes count world)) ∧
      ((∃ earlier < count, rehearsal.Reports (rehearsal.passes earlier world)) →
        EndedAs id (stateFor status) (rehearsal.passes count world)) := by
  have concluded : (stateFor status).terminal = true := by rcases ends with rfl | rfl <;> rfl
  induction count generalizing world with
  | zero => exact ⟨Or.inl holding, fun ⟨_, below, _⟩ => (Nat.not_lt_zero _ below).elim⟩
  | succ count inductionHypothesis =>
      obtain ⟨_, answered, failed⟩ := (course_holding kept spared polls ends holding).whole
      have here : rehearsal.Reports world → EndedAs id (stateFor status) (rehearsal.passed world) :=
        fun ⟨report, came⟩ => answered report came
      have either : rehearsal.Holding id handle machine (rehearsal.passed world) ∨
          EndedAs id (stateFor status) (rehearsal.passed world) := by
        cases came : ((tick rehearsal.site).whole world).1 with
        | ok report => exact Or.inr (answered report came)
        | error error => exact failed error came
      rw [passes_succ]
      rcases either with waiting | ended
      · obtain ⟨stands, reported⟩ := inductionHypothesis kept.passed waiting
        refine ⟨stands, fun ⟨earlier, below, reports⟩ => ?_⟩
        cases earlier with
        | zero => exact EndedAs.passes concluded kept.passed (here reports) count
        | succ earlier => exact reported ⟨earlier, Nat.lt_of_succ_lt_succ below, reports⟩
      · have last : EndedAs id (stateFor status) (rehearsal.passes count (rehearsal.passed world)) :=
          EndedAs.passes concluded kept.passed ended count
        exact ⟨Or.inr last, fun _ => last⟩

/-- A job that is on a machine has not ended. -/
theorem Holding.live {machine : Simulation δ → Prop} {state : JobState}
    (holding : rehearsal.Holding id handle machine world) (ended : EndedAs id state world) :
    state.active = true := by
  obtain ⟨job, found, aboard, _⟩ := holding
  obtain ⟨row, hasRow, rfl⟩ := ended
  cases found.symm.trans hasRow
  exact aboard.active

/-- What another process finds of a job whose command has completed: the job and its machine as they were,
the job still active and its machine gone, or the job recorded as completed. -/
theorem restarted_cases (rest : δ)
    (stage : rehearsal.Finished id handle world ∨ rehearsal.Lost id handle world ∨
      EndedAs id .completed world) :
    rehearsal.Finished id handle (rehearsal.restarted rest world) ∨
      rehearsal.Lost id handle (rehearsal.restarted rest world) ∨
        EndedAs id .completed (rehearsal.restarted rest world) := by
  cases saved : rehearsal.fake.statePath.isSome with
  | true =>
      have same : world.cloud.fake.restarted rehearsal.fake.statePath =
          { world.cloud.fake with plans := [], utilization := [] } := if_pos saved
      unfold restarted
      rw [same]
      exact stage
  | false =>
      have gone : (rehearsal.restarted rest world).cloud.Gone handle := by
        have same : world.cloud.fake.restarted rehearsal.fake.statePath =
            { world.cloud.fake with resources := .empty, counter := 0, plans := [], utilization := [] } :=
          if_neg (by rw [saved]; decide)
        unfold restarted
        rw [same]
        exact fun _ => nofun
      rcases stage with ⟨job, found, aboard, _⟩ | ⟨job, found, aboard, _⟩ | ended
      · exact Or.inr (Or.inl ⟨job, found, aboard, gone⟩)
      · exact Or.inr (Or.inl ⟨job, found, aboard, gone⟩)
      · exact Or.inr (Or.inr ended)

/-- A job on the fake whose command has completed, and a pass that is stopped anywhere: the passes of the
next process, one of which comes to a report, record the job as completed exactly when that process does not
find it active with its machine gone; and only then do they ever record that it failed. -/
theorem completed_after_kill_iff (rehearsal : Rehearsal δ) (config : BrokerConfig) (cloud : Simulation δ)
    (clock : Nat → Time) (stints : List (Stint δ)) (id : JobId) (handle : String) (length count : Nat)
    (rest : δ)
    (finished : rehearsal.Finished id handle (rehearsal.after stints (World.new config cloud clock))) :
    let world := rehearsal.after stints (World.new config cloud clock)
    let left := rehearsal.restarted rest ((tick rehearsal.site).run length world).2
    ((∃ earlier < count, rehearsal.Reports (rehearsal.passes earlier left)) →
      (EndedAs id .completed (rehearsal.passes count left) ↔ ¬ rehearsal.Lost id handle left)) ∧
    (EndedAs id .failed (rehearsal.passes count left) → rehearsal.Lost id handle left) := by
  intro world left
  have kept : Kept world := (Kept.new config cloud clock).after stints
  have keptLeft : Kept left := ((kept.course safe_pass).run length).restarted rest
  have completes : ∀ before after : Simulation δ, Simulation.Spares handle before after →
      Simulation.Completes rehearsal.fake handle before → Simulation.Completes rehearsal.fake handle after :=
    fun _ _ spares => spares.completes
  have gone : ∀ before after : Simulation δ, Simulation.Spares handle before after →
      before.Gone handle → after.Gone handle := fun _ _ spares => spares.gone
  have stage := (course_holding kept completes (fun _ => spares_poll_completes) (Or.inl rfl)
    finished).run length
  rcases restarted_cases rest stage with waits | lost | ended
  · obtain ⟨either, reported⟩ := waits.passes keptLeft completes (fun _ => spares_poll_completes)
      (Or.inl rfl) count
    have unlost : ¬ rehearsal.Lost id handle left := by
      rintro ⟨job, found, aboard, gone⟩
      obtain ⟨_, _, _, resource, has, up, _⟩ := waits
      rw [gone resource has] at up
      cases up
    refine ⟨fun reports => iff_of_true (reported reports) unlost, fun failed => ?_⟩
    rcases either with still | completed
    · cases still.live failed
    · cases failed.unique completed
  · obtain ⟨_, reported⟩ := lost.passes keptLeft gone (fun _ => spares_poll_gone) (Or.inr rfl) count
    refine ⟨fun reports => iff_of_false (fun completed => ?_) (not_not_intro lost), fun _ => lost⟩
    cases (reported reports).unique completed
  · have last : EndedAs id .completed (rehearsal.passes count left) := EndedAs.passes rfl keptLeft ended count
    refine ⟨fun _ => iff_of_true last fun lost => ?_, fun failed => ?_⟩
    · cases lost.live ended
    · cases failed.unique last

/-! ### A rehearsal of one fake -/

instance (id : JobId) (state : JobState) (world : World γ) : Decidable (EndedAs id state world) :=
  decidable_of_iff ((world.db.jobs.find id).map Job.state = some state) Option.map_eq_some_iff

instance (rehearsal : Rehearsal δ) (job : Job) (handle : String) : Decidable (rehearsal.Aboard job handle) :=
  decidable_of_iff (job.state.active = true ∧ job.backend = some rehearsal.fake.name ∧
      job.backendHandle = some handle ∧ truthy job.cancelRequested = none)
    ⟨fun ⟨active, sited, placed, uncancelled⟩ => ⟨active, sited, placed, uncancelled⟩,
      fun ⟨active, sited, placed, uncancelled⟩ => ⟨active, sited, placed, uncancelled⟩⟩

instance (handle : String) (simulation : Simulation δ) : Decidable (simulation.Gone handle) :=
  decidable_of_iff ((simulation.machine handle).all FakeResource.terminated = true) (Option.all_eq_true _ _)

instance (rehearsal : Rehearsal δ) (id : JobId) (handle : String) (machine : Simulation δ → Prop)
    [DecidablePred machine] (world : World (Simulation δ)) :
    Decidable (rehearsal.Holding id handle machine world) :=
  decidable_of_iff ((world.db.jobs.find id).any fun job =>
      decide (rehearsal.Aboard job handle ∧ machine world.cloud)) (by simp [Holding, Option.any_eq_true])

instance (rehearsal : Rehearsal δ) (world : World (Simulation δ)) : Decidable (rehearsal.Reports world) :=
  decidable_of_iff (((tick rehearsal.site).whole world).1.toOption.isSome = true) <| by
    unfold Reports
    cases ((tick rehearsal.site).whole world).1 <;> simp [Except.toOption]

/-- A broker with one fake, whose clock moves on by a step each time it is read. -/
def solo : Rehearsal Unit where
  fake :=
    { name := "fake"
      clock := fun reading => reading * twelveMinutes
      tier := "spot"
      currency := .usd
      capacity := [("t4", 1)]
      startupSeconds := 0
      statePath := some "fake.json"
      checkpoints := none }
  ahead := []
  behind := []
  latest := none
  score := fun _ _ _ => 0
  evidence := fun _ => ""
  text := fun _ => "refused"
  named := by decide +kernel
  distinct := fun _ => nofun

/-- The fake before the first launch; a command of the job is scripted to end at once. -/
def scripted : Simulation Unit where
  fake :=
    { resources := .empty
      counter := 0
      plans := [("job", { runHours := some 0 })]
      utilization := []
      asked := 0 }
  rest := ()

/-- Ann joins and asks for four hours, and a pass starts her job. -/
def launching : List (Stint Unit) :=
  (Operation.opening ++ Operation.ticks 1).map fun entry => (entry.1, entry.2, none)

/-- The world the pass leaves that starts the job. -/
abbrev launched : World (Simulation Unit) := solo.after launching (World.new .club scripted solo.fake.clock)

theorem launched_finished : solo.Finished "job" "fake-0001" launched := by
  have concluded : solo.Holding "job" "fake-0001" (fun simulation =>
      (simulation.machine "fake-0001").any fun resource =>
        !resource.terminated && decide (resource.outcome = .completed ∧ resource.readyAt ≤ 0 ∧
          resource.finishAt ≤ 0)) launched := by decide +kernel
  obtain ⟨job, found, aboard, machine⟩ := concluded
  obtain ⟨resource, has, holds⟩ := (Option.any_eq_true _ _).mp machine
  obtain ⟨up, ended⟩ := Bool.and_eq_true_iff.mp holds
  obtain ⟨outcome, ready, finish⟩ := of_decide_eq_true ended
  have positive : ∀ reading, 0 ≤ timestamp (solo.fake.clock reading) := by
    intro reading
    show (0 : ℚ) ≤ ((reading * twelveMinutes : Int) : ℚ) / 1000000
    unfold twelveMinutes
    positivity
  exact ⟨job, found, aboard, resource, has, by simpa using up, outcome, fun reading _ =>
    ⟨ready.trans (positive reading), finish.trans (positive reading)⟩⟩

/-- A pass that is stopped before the machine is released leaves the job to be recorded by the next. -/
theorem completed_after_kill_iff_unreleased :
    EndedAs "job" .completed
      (solo.passes 1 (solo.restarted () ((tick solo.site).run 21 launched).2)) := by
  obtain ⟨recorded, _⟩ := completed_after_kill_iff solo .club scripted solo.fake.clock launching "job"
    "fake-0001" 21 1 () launched_finished
  have reports : solo.Reports (solo.restarted () ((tick solo.site).run 21 launched).2) := by decide +kernel
  have unlost : ¬ solo.Lost "job" "fake-0001" (solo.restarted () ((tick solo.site).run 21 launched).2) := by
    decide +kernel
  exact (recorded ⟨0, Nat.zero_lt_one, reports⟩).mpr unlost

/-- A pass that is stopped after the machine was released and before the result is recorded: the job
completed, and the next pass records that it failed. -/
theorem completed_work_fails :
    let left := solo.restarted () ((tick solo.site).run 22 launched).2
    solo.Finished "job" "fake-0001" launched ∧ solo.Reports left ∧
      ¬ EndedAs "job" .completed (solo.passes 1 left) ∧ EndedAs "job" .failed (solo.passes 1 left) :=
  ⟨launched_finished, by decide +kernel, by decide +kernel, by decide +kernel⟩

end Rehearsal

end GpuBroker.Broker
