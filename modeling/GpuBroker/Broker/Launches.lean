/-
This file is the pass over the queue next to cancellations, and what becomes of
the machines it launches.

A launch comes before the transaction that puts the machine on the job's record,
so until that commits only the pass knows of it. Every machine is accounted for
at the end of the pass when nothing gets in between: the job is still waiting
when its allocation commits, and no other record names the machine. A
cancellation that commits in between makes the guarded transition raise, which
ends the pass and leaves the machine behind.

To say so the cloud is watched: it keeps a list of the launches it answered and
of the machines it was told to stop.
-/
import GpuBroker.Broker.Races

namespace GpuBroker.Broker

open Library

variable {γ ι : Type}

/-! ### A watched cloud -/

/-- A cloud, and the calls it has answered. -/
structure Watched (γ : Type) where
  cloud : γ
  calls : List Call

/-- A call that neither launches nor stops a machine. -/
def Watched.through {α : Type} (call : γ → α × γ) (watched : Watched γ) : α × Watched γ :=
  ((call watched.cloud).1, { watched with cloud := (call watched.cloud).2 })

/-- A backend whose launches and stops are watched. -/
def Backend.watched (backend : Backend γ) : Backend (Watched γ) where
  name := backend.name
  currency := backend.currency
  tier := backend.tier
  supports := backend.supports
  freeSlots gpuType := Watched.through (backend.freeSlots gpuType)
  launch job watched :=
    let answer := backend.launch job watched.cloud
    let calls := match answer.1 with
      | .ok allocation => watched.calls ++ [.launched backend.name allocation.handle]
      | .error _ => watched.calls
    (answer.1, ⟨answer.2, calls⟩)
  start handle job := Watched.through (backend.start handle job)
  poll handle := Watched.through (backend.poll handle)
  fetchLogs handle after := Watched.through (backend.fetchLogs handle after)
  sampleUtilization handle := Watched.through (backend.sampleUtilization handle)
  terminate handle reason watched :=
    let answer := backend.terminate handle reason watched.cloud
    (answer.1, ⟨answer.2, watched.calls ++ [.terminated backend.name handle]⟩)

def Site.watched (site : Site γ) : Site (Watched γ) where
  backends := site.backends.map Backend.watched
  latest := site.latest.map fun latest job => Watched.through (latest job)
  score := site.score
  evidence := site.evidence

/-- A world from the moment its cloud is watched. -/
def World.watched (world : World γ) : World (Watched γ) where
  db := world.db
  config := world.config
  cloud := ⟨world.cloud, []⟩
  clock := world.clock
  asked := world.asked

theorem Booked.watched {world : World γ} (booked : Booked world) : Booked world.watched where
  rows := fun row member =>
    let mine := booked.rows row member
    ⟨mine.positive, mine.shown, mine.period, mine.owned⟩
  jobs := booked.jobs
  typed := booked.typed

/-- What a watched cloud writes down of a call. -/
def Call.recorded : Call → List Call
  | .other => []
  | call => [call]

/-- What a call does to a watched cloud; the handles a launch hands out are not empty. -/
def Outside.watched (γ : Type) : Outside (Watched γ) where
  calls := fun call before after => after.calls = before.calls ++ call.recorded
  fetched := fun _ _ _ _ _ => True
  handles := fun handle => handle ≠ ""
  idle := fun _ => (List.append_nil _).symm

/-! ### Machines that are accounted for -/

/-- A machine is on the record of a job that is active. -/
def OnRecord (world : World γ) (backend handle : String) : Prop :=
  ∃ id row, world.db.jobs.find id = some row ∧ row.state.active = true ∧
    row.backend = some backend ∧ row.backendHandle = some handle

/-- A machine of a backend of the site, with names that a record can hold. -/
structure Nameable (site : Site γ) (backend handle : String) : Prop where
  named : backend ≠ ""
  held : handle ≠ ""
  found : (site.backend backend).isSome = true

/-- Every machine that was launched, but perhaps one, is on record or was told to stop. -/
def Accounted (site : Site γ) (except : Option (String × String)) (world : World (Watched γ)) : Prop :=
  ∀ backend handle, .launched backend handle ∈ world.cloud.calls →
    Nameable site backend handle ∧ (except = some (backend, handle) ∨
      .terminated backend handle ∈ world.cloud.calls ∨ OnRecord world backend handle)

/-- What the pass counts on: a machine that is on record stays so until it is told to stop. -/
structure Guards (site : Site γ) (world next : World (Watched γ)) : Prop where
  persists : Persists world next
  calls : ∀ call ∈ world.cloud.calls, call ∈ next.cloud.calls
  launches : ∀ backend handle, .launched backend handle ∈ next.cloud.calls →
    .launched backend handle ∈ world.cloud.calls
  kept : ∀ backend handle, Nameable site backend handle → OnRecord world backend handle →
    .terminated backend handle ∈ next.cloud.calls ∨ OnRecord next backend handle

theorem Guards.refl (site : Site γ) (world : World (Watched γ)) : Guards site world world :=
  ⟨Persists.refl world, fun _ member => member, fun _ _ member => member, fun _ _ _ => Or.inr⟩

theorem Guards.trans {site : Site γ} {one two three : World (Watched γ)}
    (first : Guards site one two) (second : Guards site two three) : Guards site one three where
  persists := first.persists.trans second.persists
  calls := fun call member => second.calls call (first.calls call member)
  launches := fun backend handle member =>
    first.launches backend handle (second.launches backend handle member)
  kept := by
    intro backend handle nameable onRecord
    rcases first.kept backend handle nameable onRecord with stopped | still
    · exact Or.inl (second.calls _ stopped)
    · exact second.kept backend handle nameable still

theorem Accounted.guards {site : Site γ} {except : Option (String × String)}
    {world next : World (Watched γ)} (accounted : Accounted site except world)
    (guards : Guards site world next) : Accounted site except next := by
  intro backend handle launched
  obtain ⟨nameable, either⟩ := accounted backend handle (guards.launches _ _ launched)
  refine ⟨nameable, ?_⟩
  rcases either with excepted | stopped | onRecord
  · exact Or.inl excepted
  · exact Or.inr (Or.inl (guards.calls _ stopped))
  · exact Or.inr (guards.kept backend handle nameable onRecord)

/-- What a cancellation counts on: a record that goes on is the one it was, or was started from the
queue, and holds what it held. -/
structure Firm (world next : World (Watched γ)) : Prop where
  persists : Persists world next
  calls : ∀ call ∈ world.cloud.calls, call ∈ next.cloud.calls
  rows : ∀ id row later, world.db.jobs.find id = some row → next.db.jobs.find id = some later →
    later.state.terminal = true ∨ (row.state = .queued ∧ later.state = .allocating) ∨
      (later.state = row.state ∧ later.backend = row.backend ∧ later.backendHandle = row.backendHandle)
  holds : ∀ id row, world.db.jobs.find id ≠ none → next.db.jobs.find id = some row →
    row.state.terminal = false →
      ∀ currency, next.db.jobHolding id currency = world.db.jobHolding id currency

theorem Firm.refl (world : World (Watched γ)) : Firm world world where
  persists := Persists.refl world
  calls := fun _ member => member
  rows := by
    intro id row later found hasLater
    rw [found] at hasLater
    cases hasLater
    exact Or.inr (Or.inr ⟨rfl, rfl, rfl⟩)
  holds := fun _ _ _ _ _ _ => rfl

theorem Firm.trans {one two three : World (Watched γ)} (first : Firm one two)
    (second : Firm two three) : Firm one three where
  persists := first.persists.trans second.persists
  calls := fun call member => second.calls call (first.calls call member)
  rows := by
    intro id row last found hasLast
    obtain ⟨middle, hasMiddle, _⟩ := first.persists.jobs id row found
    rcases second.rows id middle last hasMiddle hasLast with concluded | ⟨waiting, started⟩ | same
    · exact Or.inl concluded
    · rcases first.rows id row middle found hasMiddle with concluded | ⟨_, running⟩ | before
      · rw [waiting] at concluded
        cases concluded
      · rw [waiting] at running
        cases running
      · exact Or.inr (Or.inl ⟨before.1.symm.trans waiting, started⟩)
    · rcases first.rows id row middle found hasMiddle with concluded | ⟨waiting, started⟩ | before
      · exact Or.inl (same.1 ▸ concluded)
      · exact Or.inr (Or.inl ⟨waiting, same.1.trans started⟩)
      · exact Or.inr (Or.inr ⟨same.1.trans before.1, same.2.1.trans before.2.1,
          same.2.2.trans before.2.2⟩)
  holds := by
    intro id last known hasLast live currency
    obtain ⟨row, found⟩ := Option.ne_none_iff_exists'.mp known
    obtain ⟨middle, hasMiddle, _⟩ := first.persists.jobs id row found
    have liveMiddle : middle.state.terminal = false := by
      rcases second.rows id middle last hasMiddle hasLast with concluded | ⟨waiting, _⟩ | same
      · rw [concluded] at live
        cases live
      · rw [waiting]
        rfl
      · exact same.1 ▸ live
    rw [second.holds id last (by rw [hasMiddle]; exact nofun) hasLast live currency,
      first.holds id middle known hasMiddle liveMiddle currency]

/-! ### Accesses of a pass and of a cancellation -/

/-- What a move leaves of the rows. -/
theorem move_rows {world next : World γ} {current : Job} {target : JobState} {change : Change}
    {now : Time} {outstanding : Option Cents}
    (applied : (Write.move current target change now outstanding).apply world = .ok next) :
    ∃ row, world.db.jobs.find current.jobId = some row ∧ row.state = current.state ∧
      next.db.jobs.find current.jobId = some ((current.movedTo target change now).writtenOver row) ∧
      ∀ id, id ≠ current.jobId → next.db.jobs.find id = world.db.jobs.find id := by
  obtain ⟨db, written, rfl⟩ := Write.apply_eq applied
  obtain ⟨row, found, state, rfl⟩ := Db.moveJob_eq written
  have rewritten : ∀ id, (world.db.jobs.modify current.jobId
      (current.movedTo target change now).writtenOver (Job.writtenOver_id _)).find id =
        if id = current.jobId then
          (world.db.jobs.find id).map (current.movedTo target change now).writtenOver
        else world.db.jobs.find id := fun id => Table.find_modify _ _ _ _ _
  refine ⟨row, found, state, ?_, fun id differs => ?_⟩
  · refine (rewritten current.jobId).trans ?_
    rw [if_pos rfl, found]
    rfl
  · exact (rewritten id).trans (if_neg differs)

/-- A cancellation that told the machine of the record to stop keeps every other machine on
record. -/
theorem guards_end {site : Site γ} {world next : World (Watched γ)} {current : Job}
    {target : JobState} {change : Change} {now : Time} {outstanding : Option Cents}
    (stopped : ∀ row backend handle, world.db.jobs.find current.jobId = some row →
      row.state = current.state → row.state.active = true → row.backend = some backend →
      row.backendHandle = some handle → Nameable site backend handle →
      .terminated backend handle ∈ world.cloud.calls)
    (applied : (Write.move current target change now outstanding).apply world = .ok next) :
    Guards site world next where
  persists := Write.persists applied
  calls := fun _ member => (apply_cloud applied).symm ▸ member
  launches := fun _ _ member => (apply_cloud applied) ▸ member
  kept := by
    rintro backend handle nameable ⟨id, row, found, active, named, placed⟩
    obtain ⟨moved, hasMoved, state, _, others⟩ := move_rows applied
    by_cases same : id = current.jobId
    · subst same
      rw [found] at hasMoved
      cases hasMoved
      rw [apply_cloud applied]
      exact Or.inl (stopped row backend handle found state active named placed nameable)
    · exact Or.inr ⟨id, row, (others id same).trans found, active, named, placed⟩

/-! ### The pass over the queue -/

/-- A transaction of the pass that nobody got ahead of: the job it starts is still waiting, and the
machine it records is on no other record. -/
def Undisturbed (write : Write) (world : World γ) : Prop :=
  Unmoved world write ∧
    match write with
    | .move current target change now _ =>
        (∃ row ∈ world.db.jobs.find current.jobId, row.state = current.state) ∧
          world.db.handleTaken (current.movedTo target change now) = false
    | _ => True

instance (world : World γ) : ∀ write : Write, Decidable (Undisturbed write world)
  | .move current target change now outstanding =>
      decidable_of_iff (Unmoved world (.move current target change now outstanding) ∧
        (∃ row ∈ world.db.jobs.find current.jobId, row.state = current.state) ∧
          world.db.handleTaken (current.movedTo target change now) = false) Iff.rfl
  | .settle job amount accrued now =>
      decidable_of_iff (Unmoved world (.settle job amount accrued now)) (and_iff_left trivial).symm
  | .insertUser _ | .updateUser _ | .suspend _ _ _ _ | .restore _ | .create _ _ | .refuse _ _
  | .touch _ _ _ | .sampled _ _ | .notify _ | .abandon _ _ _ _ _ _ | .applyPrices _ =>
      isTrue ⟨trivial, trivial⟩

/-- The transactions of the pass: it makes notes, and starts queued jobs. -/
def Write.Dispatches : Write → Prop
  | .touch _ columns _ => columns.Ours
  | .sampled _ _ | .notify _ => True
  | .move current target _ _ _ => current.state = .queued ∧ target = .allocating
  | _ => False

/-- A transaction of the pass that nobody got ahead of is committed. -/
theorem dispatches_commits {world : World γ} {write : Write} {error : BrokerError}
    (dispatches : write.Dispatches) (sound : Sound world write)
    (undisturbed : Undisturbed write world) : write.apply world ≠ .error error := by
  intro failed
  cases write with
  | touch job columns now =>
      have beside : (Write.touch job columns now).beside := trivial
      refine beside_commits beside sound (fun _ _ _ same => ?_) failed
      cases same
      exact dispatches.streams
  | sampled | notify =>
      refine beside_commits ?_ sound (fun _ _ _ => nofun) failed
      exact trivial
  | move current target change now outstanding =>
      obtain ⟨_, ⟨row, found, state⟩, free⟩ := undisturbed
      have hit : world.db.jobs.find current.jobId = some row := found
      simp only [Write.apply, Write.onDb, Db.moveJob, hit, state, free, ne_eq, not_true_eq_false,
        if_false, Bool.false_eq_true] at failed
      cases failed
  | insertUser | updateUser | suspend | restore | create | refuse | settle | abandon | applyPrices =>
      exact dispatches.elim

/-- The setting of the pass over the queue: nobody takes a machine off a record without telling it
to stop, and nothing is raised. -/
def dispatching (site : Site γ) : Setting (Watched γ) where
  outside := .watched γ
  alone := False
  calm := False
  others := Guards site
  makes := fun write _ => write.Dispatches
  issues := fun _ => True
  allows := Undisturbed
  raises := fun _ => False
  refl := Guards.refl site
  trans := Guards.trans
  persists := Guards.persists
  still := False.elim
  rests := trivial
  lasts := fun made _ => made
  unspent := False.elim
  unmoved := fun allowed _ _ _ => allowed.1
  fails := fun _ allowed made sound _ failed => dispatches_commits made sound allowed failed

/-- What a cancellation has found of the record it moves: it holds on to it, and the machine on it
was told to stop. -/
structure Withdrawn (site : Site γ) (job : Job) (world : World (Watched γ)) : Prop where
  held : ∃ found : World (Watched γ), Firm found world ∧ found.db.jobs.find job.jobId = some job
  stopped : ∀ backend handle, truthy job.backend = some backend →
    truthy job.backendHandle = some handle → (site.backend backend).isSome = true →
      .terminated backend handle ∈ world.cloud.calls

theorem Withdrawn.firm {site : Site γ} {job : Job} {world next : World (Watched γ)}
    (withdrawn : Withdrawn site job world) (firm : Firm world next) : Withdrawn site job next := by
  obtain ⟨⟨found, before, row⟩, stopped⟩ := withdrawn
  exact ⟨⟨found, before.trans firm, row⟩, fun backend handle named held known =>
    firm.calls _ (stopped backend handle named held known)⟩

/-- The last move of a cancellation, along its record. -/
theorem Withdrawn.moves {site : Site γ} {job : Job} {change : Change} {now : Time}
    {outstanding : Option Cents} {world next : World (Watched γ)} (withdrawn : Withdrawn site job world)
    (applied : (Write.move job .cancelled change now outstanding).apply world = .ok next) :
    Guards site world next := by
  refine guards_end (fun row backend handle found state active named placed nameable => ?_) applied
  obtain ⟨⟨earlier, firm, before⟩, stopped⟩ := withdrawn
  rcases firm.rows job.jobId job row before found with concluded | ⟨waiting, _⟩ | ⟨_, same, held⟩
  · rw [JobState.active_holdsBudget active] at concluded
    cases concluded
  · rw [state, waiting] at active
    cases active
  · refine stopped backend handle ?_ ?_ nameable.found
    · rw [← same, named, truthy_some nameable.named]
    · rw [← held, placed, truthy_some nameable.held]

/-- Backends with names, whose machines have handles, and that always tell their free slots. -/
structure Dependable (site : Site γ) : Prop where
  named : ∀ backend ∈ site.backends, backend.name ≠ ""
  held : site.Handled
  counted : ∀ backend ∈ site.backends, ∀ gpuType cloud detail,
    (backend.freeSlots gpuType cloud).1 ≠ .error detail

theorem watched_backend (site : Site γ) (name : String) :
    site.watched.backend name = (site.backend name).map Backend.watched :=
  List.find?_map

/-- A machine that was just launched is the one that is not yet accounted for. -/
theorem Accounted.launched {site : Site γ} {backend : Backend γ} {job : Job} {allocation : Allocation}
    {world : World (Watched γ)} (dependable : Dependable site) (mine : backend ∈ site.backends)
    (answer : (backend.launch job world.cloud.cloud).1 = .ok allocation)
    (accounted : Accounted site none world) :
    Accounted site (some (backend.name, allocation.handle))
      (world.called (backend.watched.launch job world.cloud).2) := by
  intro name handle member
  have calls : (world.called (backend.watched.launch job world.cloud).2).cloud.calls =
      world.cloud.calls ++ [.launched backend.name allocation.handle] := by
    show (backend.watched.launch job world.cloud).2.calls = _
    simp only [Backend.watched, answer]
  rw [calls] at member ⊢
  rcases List.mem_append.mp member with old | new
  · obtain ⟨nameable, either⟩ := accounted name handle old
    refine ⟨nameable, Or.inr ?_⟩
    rcases either with nothing | stopped | onRecord
    · cases nothing
    · exact Or.inl (List.mem_append_left _ stopped)
    · exact Or.inr onRecord
  · cases List.mem_singleton.mp new
    refine ⟨⟨dependable.named backend mine, dependable.held backend mine job _ allocation answer, ?_⟩,
      Or.inl rfl⟩
    exact List.find?_isSome.mpr ⟨backend, mine, decide_eq_true rfl⟩

/-- The move that puts a machine on record accounts for it. -/
theorem Accounted.placed {site : Site γ} {current : Job} {change : Change} {now : Time}
    {outstanding : Option Cents} {backend handle : String} {world next : World (Watched γ)}
    (moving : Moving world current .allocating change now outstanding)
    (named : change.backend = some backend) (held : change.backendHandle = some handle)
    (applied : (Write.move current .allocating change now outstanding).apply world = .ok next)
    (accounted : Accounted site (some (backend, handle)) world) : Accounted site none next := by
  obtain ⟨row, found, state, after, others⟩ := move_rows applied
  have queued : current.state = .queued := by
    have places := moving.places
    rw [held] at places
    simpa using places.symm
  have kept : change.clearHandle = false := moving.clears
  intro other machine member
  rw [apply_cloud applied] at member ⊢
  obtain ⟨nameable, either⟩ := accounted other machine member
  refine ⟨nameable, Or.inr ?_⟩
  rcases either with mine | stopped | ⟨id, before, hasBefore, active, onBackend, onMachine⟩
  · cases mine
    refine Or.inr ⟨current.jobId, _, after, rfl, ?_, ?_⟩
    · simp [Job.writtenOver, Job.movedTo, named, truthy_some nameable.named]
    · simp [Job.writtenOver, Job.movedTo, held, kept, truthy_some nameable.held]
  · exact Or.inl stopped
  · refine Or.inr ⟨id, before, ?_, active, onBackend, onMachine⟩
    refine (others id ?_).trans hasBefore
    rintro rfl
    rw [found] at hasBefore
    cases hasBefore
    rw [state, queued] at active
    cases active

instance (world : World γ) (backend handle : String) : Decidable (OnRecord world backend handle) :=
  decidable_of_iff (∃ row ∈ world.db.jobs.rows, row.state.active = true ∧
      row.backend = some backend ∧ row.backendHandle = some handle) <| by
    constructor
    · rintro ⟨row, member, onRecord⟩
      exact ⟨row.jobId, row, Table.find_of_mem member, onRecord⟩
    · rintro ⟨id, row, found, onRecord⟩
      exact ⟨row, Table.find_mem found, onRecord⟩

theorem Rack.dependable : Dependable Rack.running.site := by
  refine ⟨fun backend member => ?_, Rack.handled _ _, fun backend member gpuType cloud detail => ?_⟩
  · rw [List.mem_singleton.mp member]
    exact (by decide : "cloud" ≠ "")
  · rw [List.mem_singleton.mp member]
    exact nofun

end GpuBroker.Broker
