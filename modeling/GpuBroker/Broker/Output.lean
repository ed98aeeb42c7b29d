/-
This file is the delivery of a job's output: what its log holds of what its
machines put out, over any number of attempts.

The log is read through one cursor per job, and a machine's lines are counted
from zero. So the log is what the machines put out, one after another, as long as
every launch finds the cursor at zero and every machine is read to its end
before it is given up; once lines of an earlier machine were read, the first
lines of the next are skipped.
-/
import GpuBroker.Broker.Rows

namespace GpuBroker.Broker

open Library

variable {γ : Type}

/-! ### Lines -/

/-- The lines that are not the broker's. -/
def own (lines : List Line) : List Line := lines.filter fun line => line.1 ≠ "broker"

theorem own_append (first second : List Line) : own (first ++ second) = own first ++ own second :=
  List.filter_append ..

theorem own_ours {lines : List Line} (ours : ∀ line ∈ lines, line.1 = "broker") : own lines = [] := by
  refine List.filter_eq_nil_iff.mpr fun line member => ?_
  rw [ours line member]
  decide

/-- A job's own output in its log. -/
def Db.output (db : Db) (id : JobId) : List Line :=
  own ((db.logs.filter fun row => row.jobId = id).map fun row => (row.stream, row.line))

/-- The lines of a job's own that a transaction adds to its log. -/
def Write.stores (id : JobId) : Write → List Line
  | .touch job columns _ => if job = id then own columns.lines else []
  | _ => []

theorem output_apply {world next : World γ} {write : Write} (applied : write.apply world = .ok next)
    (id : JobId) : next.db.output id = world.db.output id ++ write.stores id := by
  obtain ⟨db, written, rfl⟩ := Write.apply_eq applied
  have same : db.logs = world.db.logs → db.output id = world.db.output id ++ [] := fun same => by
    rw [Db.output, same, Db.output, List.append_nil]
  cases write with
  | touch job columns now =>
      rw [Db.touchJob_eq written]
      have mine : ((columns.lines.map fun line => LogRow.mk job now line.1 line.2).filter
          fun row => row.jobId = id) =
          if job = id then columns.lines.map fun line => LogRow.mk job now line.1 line.2 else [] := by
        split
        · next same =>
          refine List.filter_eq_self.mpr fun row member => ?_
          obtain ⟨line, _, rfl⟩ := List.mem_map.mp member
          exact decide_eq_true same
        · next differs =>
          refine List.filter_eq_nil_iff.mpr fun row member => ?_
          obtain ⟨line, _, rfl⟩ := List.mem_map.mp member
          exact fun equal => differs (of_decide_eq_true equal)
      show own (((world.db.logs ++ _).filter _).map _) = _
      rw [List.filter_append, List.map_append, own_append, mine, Write.stores]
      split
      · rw [List.map_map]
        exact congrArg _ (congrArg own (List.map_id _))
      · rfl
  | create job read =>
      obtain ⟨jobs, _, rfl⟩ := Db.insertJob_eq written
      exact same rfl
  | refuse job refusal =>
      obtain ⟨jobs, _, rfl⟩ := Db.insertJob_eq written
      exact same rfl
  | move current target change now outstanding =>
      obtain ⟨row, _, _, rfl⟩ := Db.moveJob_eq written
      exact same rfl
  | settle | abandon =>
      cases written
      exact same rfl
  | insertUser | updateUser | suspend | restore | sampled | notify | applyPrices =>
      exact same (Write.aside written trivial).2.2.2

theorem Touch.Ours.stores {columns : Touch} (ours : columns.Ours) : own columns.lines = [] := by
  refine own_ours fun line member => ?_
  cases columns with
  | output after polled kept => exact ours.elim
  | note kept => exact ours line member
  | pinTier | cancelRequest => rw [List.mem_singleton.mp member]
  | attempt | preemption | checkpoint => cases member

/-! ### What the machines put out -/

/-- What every machine of a backend has put out, by the name of the backend and the handle. -/
abbrev Emitted (γ : Type) := String → String → γ → List Line

/-- Every machine has put out what it had, and perhaps more. -/
def Emitted.Grows (emitted : Emitted γ) (before after : γ) : Prop :=
  ∀ name handle, emitted name handle before <+: emitted name handle after

/-- What is assumed of a site: its machines only add to what they put out, and reading a machine's
output from an index on gives the lines from that index on. -/
structure Emits (site : Site γ) (emitted : Emitted γ) : Prop where
  freeSlots : ∀ backend ∈ site.backends, ∀ gpuType cloud,
    emitted.Grows cloud (backend.freeSlots gpuType cloud).2
  launch : ∀ backend ∈ site.backends, ∀ job cloud, emitted.Grows cloud (backend.launch job cloud).2
  start : ∀ backend ∈ site.backends, ∀ handle job cloud,
    emitted.Grows cloud (backend.start handle job cloud).2
  poll : ∀ backend ∈ site.backends, ∀ handle cloud, emitted.Grows cloud (backend.poll handle cloud).2
  fetchLogs : ∀ backend ∈ site.backends, ∀ handle after cloud,
    emitted.Grows cloud (backend.fetchLogs handle after cloud).2
  sampled : ∀ backend ∈ site.backends, ∀ handle cloud,
    emitted.Grows cloud (backend.sampleUtilization handle cloud).2
  terminate : ∀ backend ∈ site.backends, ∀ handle reason cloud,
    emitted.Grows cloud (backend.terminate handle reason cloud).2
  latest : ∀ latest ∈ site.latest, ∀ job cloud, emitted.Grows cloud (latest job cloud).2
  answers : ∀ backend ∈ site.backends, ∀ handle after cloud lines,
    (backend.fetchLogs handle after cloud).1 = .ok lines →
      lines = (emitted backend.name handle (backend.fetchLogs handle after cloud).2).drop after

theorem Emitted.Grows.refl {emitted : Emitted γ} (cloud : γ) : emitted.Grows cloud cloud :=
  fun _ _ => List.prefix_rfl

/-- The capacity outside, when its machines put out lines. -/
def Outside.emitting (emitted : Emitted γ) : Outside γ where
  calls := fun _ before after => emitted.Grows before after
  fetched := fun cloud name handle after lines => lines = (emitted name handle cloud).drop after
  handles := fun _ => True
  idle := Emitted.Grows.refl

theorem runs_emitting {site : Site γ} {emitted : Emitted γ} (emits : Emits site emitted) :
    (solitary (Outside.emitting emitted)).Runs site where
  ends := fun backend member => ⟨fun handle reason cloud =>
    ⟨trivial, emits.terminate backend member handle reason cloud⟩, fun _ _ _ _ _ => trivial⟩
  starts := fun backend member => ⟨emits.freeSlots backend member, fun _ _ _ _ => trivial,
    fun job cloud _ _ => emits.launch backend member job cloud,
    fun job cloud _ _ => ⟨trivial, emits.launch backend member job cloud, trivial⟩⟩
  watches := fun backend member => ⟨emits.start backend member, emits.poll backend member,
    fun _ _ _ _ => trivial, emits.fetchLogs backend member, emits.answers backend member,
    emits.sampled backend member⟩
  latest := emits.latest

/-- What the machine on a record has put out. -/
def putOut (emitted : Emitted γ) (row : Job) (cloud : γ) : List Line :=
  match row.backendHandle with
  | some handle => emitted (row.backend.getD "") handle cloud
  | none => []

/-- What was put out by the machine that a transaction takes off a job's record. -/
def Write.releases (emitted : Emitted γ) (id : JobId) (write : Write) (world : World γ) : List Line :=
  match write.moved id, world.db.jobs.find id with
  | some target, some row => if target.active then [] else putOut emitted row world.cloud
  | _, _ => []

/-- What was put out by the machines a run took off a job's record, one after another. -/
def released (emitted : Emitted γ) (id : JobId) (steps : List (Write × World γ)) : List Line :=
  steps.flatMap fun step => step.1.releases emitted id step.2

theorem released_concat (emitted : Emitted γ) (id : JobId) (past : List (Write × World γ))
    (write : Write) (world : World γ) :
    released emitted id (past ++ [(write, world)]) =
      released emitted id past ++ write.releases emitted id world := by
  rw [released, List.flatMap_append, List.flatMap_singleton, released]

/-! ### The log along a run -/

/-- The lines fit into a job's log, each of them and all together. -/
def Fits (world : World γ) (id : JobId) (lines : List Line) : Prop :=
  world.db.logCount id + lines.length < world.config.maxLogLinesPerJob ∧
    ∀ line ∈ lines, line.2.length ≤ world.config.maxLogLineBytes

instance (world : World γ) (id : JobId) (lines : List Line) : Decidable (Fits world id lines) :=
  inferInstanceAs (Decidable (_ ∧ ∀ line ∈ lines, _))

theorem Fits.kept {world : World γ} {id : JobId} {lines : List Line} (fits : Fits world id lines) :
    withinLogBudget world.config (world.db.logCount id) lines = lines := by
  obtain ⟨room, narrow⟩ := fits
  have clipped : lines.map (clipLine world.config.maxLogLineBytes) = lines := by
    refine (List.map_congr_left fun line member => ?_).trans (List.map_id lines)
    exact if_pos (narrow line member)
  unfold withinLogBudget
  rw [if_neg (by omega)]
  simp only [clipped]
  exact if_pos (by omega)

/-- Nothing is left out by a transaction: a launch finds the cursor at zero, a machine is given up
when it was read to its end, and the log has room for what was read. -/
def Whole (emitted : Emitted γ) (write : Write) (world : World γ) : Prop :=
  match write with
  | .move current target _ _ _ => ∀ row ∈ world.db.jobs.find current.jobId,
      if target.active then current.state = .queued → row.logsFetched = 0
      else (putOut emitted row world.cloud).length ≤ row.logsFetched
  | .touch id (.output _ polled _) _ => Fits world id polled
  | _ => True

instance (emitted : Emitted γ) (write : Write) (world : World γ) : Decidable (Whole emitted write world) :=
  match write with
  | .move current target _ _ _ => inferInstanceAs (Decidable (∀ row ∈ world.db.jobs.find current.jobId,
      if target.active then current.state = .queued → row.logsFetched = 0
      else (putOut emitted row world.cloud).length ≤ row.logsFetched))
  | .touch _ (.output _ polled _) _ => inferInstanceAs (Decidable (_ ∧ ∀ line ∈ polled, _))
  | .touch _ (.attempt ..) _ | .touch _ (.preemption ..) _ | .touch _ (.checkpoint ..) _
  | .touch _ (.pinTier ..) _ | .touch _ (.cancelRequest ..) _ | .touch _ (.note ..) _
  | .insertUser .. | .updateUser .. | .suspend .. | .restore .. | .create .. | .refuse ..
  | .settle .. | .sampled .. | .notify .. | .abandon .. | .applyPrices .. => isTrue trivial

/-- What is kept along a run: the log is what the machines given up have put out, and what was read
of the one on record. -/
structure Delivered (emitted : Emitted γ) (past : List (Write × World γ)) (world : World γ) : Prop where
  log : ∀ id row, world.db.jobs.find id = some row → world.db.output id =
    own (released emitted id past ++ (putOut emitted row world.cloud).take row.logsFetched)
  read : ∀ id row, world.db.jobs.find id = some row → row.backendHandle.isSome = true →
    row.logsFetched ≤ (putOut emitted row world.cloud).length
  absent : ∀ id, world.db.jobs.find id = none →
    world.db.output id = [] ∧ released emitted id past = []

theorem putOut_grows {emitted : Emitted γ} {before after : γ} (grows : emitted.Grows before after)
    (row : Job) : putOut emitted row before <+: putOut emitted row after := by
  unfold putOut
  split
  · exact grows _ _
  · exact List.prefix_rfl

theorem putOut_none {emitted : Emitted γ} {row : Job} {cloud : γ} (none : row.backendHandle = none) :
    putOut emitted row cloud = [] := by
  rw [putOut, none]

theorem Delivered.quiet {emitted : Emitted γ} {past : List (Write × World γ)} {world next : World γ}
    (delivered : Delivered emitted past world) (quiet : Quiet world next)
    (grows : emitted.Grows world.cloud next.cloud) : Delivered emitted past next := by
  have kept : ∀ id row, world.db.jobs.find id = some row →
      (putOut emitted row next.cloud).take row.logsFetched =
        (putOut emitted row world.cloud).take row.logsFetched := by
    intro id row found
    cases held : row.backendHandle with
    | none => rw [putOut_none held, putOut_none held]
    | some handle =>
        obtain ⟨more, whole⟩ := putOut_grows grows row
        have within := delivered.read id row found (by rw [held]; rfl)
        rw [← whole, List.take_append_of_le_length within]
  refine ⟨fun id row found => ?_, fun id row found held => ?_, fun id missing => ?_⟩
  · rw [quiet.db] at found ⊢
    rw [kept id row found]
    exact delivered.log id row found
  · rw [quiet.db] at found
    exact (delivered.read id row found held).trans (putOut_grows grows row).length_le
  · rw [quiet.db] at missing ⊢
    exact delivered.absent id missing

/-- A move that is rolled back takes no machine off a record. -/
theorem releases_rolledBack {emitted : Emitted γ} {outside : Outside γ} {world : World γ} {write : Write}
    {error : BrokerError} (sound : Sound world write) (exactly : Exact outside world write)
    (failed : write.apply world = .error error) (id : JobId) :
    write.releases emitted id world = [] := by
  unfold Write.releases
  split
  · next target row moves _ =>
    split
    · rfl
    · next gone =>
      cases write with
      | move current asked change now outstanding =>
          obtain ⟨mine, same⟩ := Option.ite_none_right_eq_some.mp moves
          obtain ⟨⟨before, found, essence⟩, _⟩ := exactly
          have moving : Moving world current asked change now outstanding := sound
          have recorded := move_rolledBack found (essence_eq essence Job.state fun _ => rfl) failed
          have given := moving.freed (by rw [Option.some.inj same]; exact Bool.eq_false_iff.mpr gone)
          rw [given] at recorded
          cases recorded
      | insertUser | updateUser | suspend | restore | create | refuse | settle | touch | sampled
      | notify | abandon | applyPrices => cases moves
  · rfl

theorem Delivered.rolledBack {emitted : Emitted γ} {outside : Outside γ}
    {past : List (Write × World γ)} {world : World γ} {write : Write} {error : BrokerError}
    (delivered : Delivered emitted past world) (sound : Sound world write)
    (exactly : Exact outside world write) (failed : write.apply world = .error error) :
    Delivered emitted (past ++ [(write, world)]) world := by
  have same : ∀ id, released emitted id (past ++ [(write, world)]) = released emitted id past := by
    intro id
    rw [released_concat, releases_rolledBack sound exactly failed, List.append_nil]
  refine ⟨fun id row found => ?_, delivered.read, fun id missing => ?_⟩
  · rw [same]
    exact delivered.log id row found
  · rw [same]
    exact delivered.absent id missing

/-- A record on the same machine. -/
theorem putOut_same {emitted : Emitted γ} {row later : Job} (cloud : γ)
    (backend : later.backend = row.backend) (handle : later.backendHandle = row.backendHandle) :
    putOut emitted later cloud = putOut emitted row cloud := by
  unfold putOut
  rw [backend, handle]

/-- The machine and the cursor a transaction leaves on a record, and what it stores and releases. -/
inductive Reads (emitted : Emitted γ) (write : Write) (world : World γ) (id : JobId) (later : Job) :
    Prop where
  | inserted (fresh : world.db.jobs.find id = none) (none : later.backendHandle = none)
      (stores : write.stores id = []) (releases : write.releases emitted id world = [])
  | launched (row : Job) (found : world.db.jobs.find id = some row) (none : row.backendHandle = none)
      (unread : later.logsFetched = 0)
      (stores : write.stores id = []) (releases : write.releases emitted id world = [])
  | givenUp (row : Job) (found : world.db.jobs.find id = some row) (none : later.backendHandle = none)
      (whole : (putOut emitted row world.cloud).length ≤ row.logsFetched)
      (stores : write.stores id = [])
      (releases : write.releases emitted id world = putOut emitted row world.cloud)
  | read (row : Job) (found : world.db.jobs.find id = some row) (backend : later.backend = row.backend)
      (handle : later.backendHandle = row.backendHandle)
      (stores : write.stores id = own ((putOut emitted row world.cloud).drop row.logsFetched))
      (cursor : later.logsFetched = (putOut emitted row world.cloud).length)
      (before : row.logsFetched ≤ (putOut emitted row world.cloud).length)
      (releases : write.releases emitted id world = [])
  | kept (row : Job) (found : world.db.jobs.find id = some row) (backend : later.backend = row.backend)
      (handle : later.backendHandle = row.backendHandle) (cursor : later.logsFetched = row.logsFetched)
      (stores : write.stores id = []) (releases : write.releases emitted id world = [])

theorem releases_unmoved {emitted : Emitted γ} {write : Write} {world : World γ} {id : JobId}
    (unmoved : write.moved id = none) : write.releases emitted id world = [] := by
  unfold Write.releases
  rw [unmoved]

/-- What a move leaves of the machine and the cursor. -/
theorem reads_moved {emitted : Emitted γ} {outside : Outside γ} {world : World γ} {current row : Job}
    {target : JobState} {change : Change} {now : Time} {outstanding : Option Cents} (booked : Booked world)
    (moving : Moving world current target change now outstanding)
    (exactly : Exact outside world (.move current target change now outstanding))
    (whole : Whole emitted (.move current target change now outstanding) world)
    (found : world.db.jobs.find current.jobId = some row) :
    Reads emitted (.move current target change now outstanding) world current.jobId
      ((current.movedTo target change now).writtenOver row) := by
  have moves : (Write.move current target change now outstanding).moved current.jobId = some target :=
    if_pos rfl
  obtain ⟨again, hasRow, essence⟩ := exactly.1
  rw [found] at hasRow
  cases hasRow
  have state : row.state = current.state := essence_eq essence Job.state fun _ => rfl
  have kept := whole row found
  by_cases active : target.active = true
  · have releases : (Write.move current target change now outstanding).releases emitted current.jobId
        world = [] := by
      unfold Write.releases
      rw [moves, found]
      exact if_pos active
    rw [if_pos active] at kept
    have clears : change.clearHandle = false := by
      rw [moving.clears]
      revert active
      cases target <;> decide
    rcases JobState.canTransition_active moving.legal active with before | ⟨queued, rfl⟩
    · have unplaced : change.backendHandle = none := by
        have places := moving.places
        rw [← Option.not_isSome_iff_eq_none, places]
        revert before
        cases current.state <;> simp [JobState.active]
      have unsited : change.backend = none := by
        have sited := moving.sited
        rw [unplaced] at sited
        exact Option.not_isSome_iff_eq_none.mp (by rw [sited]; exact Bool.false_ne_true)
      refine .kept row found ?_ ?_ rfl rfl releases
      · show (truthy change.backend).or current.backend = row.backend
        rw [unsited]
        exact (essence_eq essence Job.backend fun _ => rfl).symm
      · show (if change.clearHandle then none else
          (truthy change.backendHandle).or current.backendHandle) = row.backendHandle
        rw [clears, unplaced]
        exact (essence_eq essence Job.backendHandle fun _ => rfl).symm
    · exact .launched row found ((booked.jobs _ row found).freed (by rw [state, queued]; rfl))
        (kept queued) rfl releases
  · rw [if_neg active] at kept
    refine .givenUp row found (moving.freed (Bool.eq_false_iff.mpr active)) kept rfl ?_
    unfold Write.releases
    rw [moves, found]
    exact if_neg active

/-- What a touch leaves of the machine and the cursor. -/
theorem reads_touched {emitted : Emitted γ} {world : World γ} {id : JobId} {columns : Touch}
    {now : Time} {row : Job} (sound : Sound world (.touch id columns now))
    (exactly : Exact (Outside.emitting emitted) world (.touch id columns now))
    (whole : Whole emitted (.touch id columns now) world) (found : world.db.jobs.find id = some row) :
    Reads emitted (.touch id columns now) world id (columns.onRow now row) := by
  rcases sound.2 with ours | ⟨after, polled, kept, rfl⟩
  · have stores : (Write.touch id columns now).stores id = [] := (if_pos rfl).trans ours.stores
    cases columns with
    | output after polled kept => exact ours.elim
    | attempt | preemption | checkpoint | pinTier | cancelRequest | note =>
        exact .kept row found rfl rfl rfl stores rfl
  · obtain ⟨some, budget, current, handle, mine, ⟨again, hasRow, essence⟩, active, cursor, placed, answered⟩ :=
      exactly
    rw [mine, found] at hasRow
    cases hasRow
    have read : row.logsFetched = after :=
      (essence_eq essence Job.logsFetched fun _ => rfl).trans cursor
    have held : row.backendHandle = Option.some handle :=
      (essence_eq essence Job.backendHandle fun _ => rfl).trans placed
    have emittedHere : putOut emitted row world.cloud =
        emitted (current.backend.getD "") handle world.cloud := by
      rw [putOut, held, essence_eq essence Job.backend fun _ => rfl]
    have fetched : polled = (putOut emitted row world.cloud).drop row.logsFetched := by
      rw [emittedHere, read]
      exact answered
    have beyond : row.logsFetched < (putOut emitted row world.cloud).length := by
      by_contra short
      rw [List.drop_of_length_le (not_lt.mp short)] at fetched
      exact some fetched
    have stored : kept = polled := budget.trans (Fits.kept whole)
    refine .read row found rfl rfl ?_ ?_ beyond.le rfl
    · refine (if_pos rfl).trans ?_
      show own kept = _
      rw [stored, fetched]
    · show after + polled.length = _
      rw [fetched, List.length_drop, ← read]
      omega

theorem stores_untouched {write : Write} {id : JobId} (untouched : write.touched ≠ some id) :
    write.stores id = [] := by
  cases write with
  | touch job columns now => exact if_neg fun same => untouched (congrArg some same)
  | insertUser | updateUser | suspend | restore | create | refuse | move | settle | sampled | notify
  | abandon | applyPrices => rfl

/-- What every transaction leaves of the machine and the cursor. -/
theorem Write.reads {emitted : Emitted γ} {world next : World γ} {write : Write} {id : JobId} {later : Job}
    (booked : Booked world) (whole : Whole emitted write world) (sound : Sound world write)
    (exactly : Exact (Outside.emitting emitted) world write) (applied : write.apply world = .ok next)
    (hasLater : next.db.jobs.find id = some later) : Reads emitted write world id later := by
  cases Write.rowStep applied hasLater with
  | inserted fresh new =>
      cases write with
      | create job read =>
          cases new
          exact .inserted fresh (Fresh.unplaced sound) rfl rfl
      | refuse job refusal =>
          cases new
          exact .inserted fresh sound.2.2.1 rfl rfl
      | insertUser | updateUser | suspend | restore | move | settle | touch | sampled | notify
      | abandon | applyPrices => cases new
  | moved current target change now outstanding row move mine found state after =>
      subst move mine after
      exact reads_moved booked sound exactly whole found
  | touched columns now row touch found after =>
      subst touch after
      exact reads_touched sound exactly whole found
  | stamped job amount accrued now row settle mine found after =>
      subst settle after
      exact .kept row found rfl rfl rfl rfl rfl
  | kept found unmoved untouched =>
      exact .kept later found rfl rfl rfl (stores_untouched untouched) (releases_unmoved unmoved)

/-- What a record's log is, after a transaction that leaves it so. -/
theorem Reads.log {emitted : Emitted γ} {past : List (Write × World γ)} {world : World γ} {write : Write}
    {id : JobId} {later : Job} (reads : Reads emitted write world id later)
    (delivered : Delivered emitted past world) :
    world.db.output id ++ write.stores id =
      own (released emitted id past ++ write.releases emitted id world ++
        (putOut emitted later world.cloud).take later.logsFetched) := by
  cases reads with
  | inserted fresh none stores releases =>
      obtain ⟨empty, unreleased⟩ := delivered.absent id fresh
      rw [empty, unreleased, stores, releases, putOut_none none, List.take_nil]
      rfl
  | launched row found none unread stores releases =>
      rw [delivered.log id row found, stores, releases, putOut_none none, unread]
      simp only [List.take_nil, List.take_zero, List.append_nil]
  | givenUp row found none whole stores releases =>
      rw [delivered.log id row found, stores, releases, putOut_none none, List.take_of_length_le whole,
        List.take_nil, List.append_nil, List.append_nil]
  | read row found backend handle stores cursor before releases =>
      rw [delivered.log id row found, stores, releases, putOut_same world.cloud backend handle, cursor,
        List.take_length, List.append_nil, ← own_append, List.append_assoc, List.take_append_drop]
  | kept row found backend handle cursor stores releases =>
      rw [delivered.log id row found, stores, releases, putOut_same world.cloud backend handle, cursor,
        List.append_nil, List.append_nil]

/-- The cursor stays within what the machine on record has put out. -/
theorem Reads.within {emitted : Emitted γ} {past : List (Write × World γ)} {world : World γ}
    {write : Write} {id : JobId} {later : Job} (reads : Reads emitted write world id later)
    (delivered : Delivered emitted past world) (held : later.backendHandle.isSome = true) :
    later.logsFetched ≤ (putOut emitted later world.cloud).length := by
  cases reads with
  | inserted _ none => rw [none] at held; cases held
  | launched _ _ _ unread => rw [unread]; exact Nat.zero_le _
  | givenUp _ _ none => rw [none] at held; cases held
  | read row _ backend handle _ cursor => rw [putOut_same world.cloud backend handle, cursor]
  | kept row found backend handle cursor =>
      rw [putOut_same world.cloud backend handle, cursor]
      exact delivered.read id row found (handle ▸ held)

/-- One transaction keeps it. -/
theorem Delivered.write {emitted : Emitted γ} {past : List (Write × World γ)} {world next : World γ}
    {write : Write} (delivered : Delivered emitted past world) (booked : Booked world)
    (whole : Whole emitted write world) (sound : Sound world write)
    (exactly : Exact (Outside.emitting emitted) world write) (applied : write.apply world = .ok next) :
    Delivered emitted (past ++ [(write, world)]) next := by
  have cloud : next.cloud = world.cloud := apply_cloud applied
  refine ⟨fun id later found => ?_, fun id later found held => ?_, fun id missing => ?_⟩
  · rw [output_apply applied, released_concat, cloud]
    exact (Write.reads booked whole sound exactly applied found).log delivered
  · rw [cloud]
    exact (Write.reads booked whole sound exactly applied found).within delivered held
  · have before : world.db.jobs.find id = none := by
      by_contra present
      obtain ⟨row, found⟩ := Option.ne_none_iff_exists'.mp present
      obtain ⟨later, hasLater, _⟩ := (Write.persists applied).jobs id row found
      rw [missing] at hasLater
      cases hasLater
    obtain ⟨empty, unreleased⟩ := delivered.absent id before
    have untouched : write.touched ≠ some id := by
      intro touched
      cases write with
      | touch job columns now =>
          cases touched
          obtain ⟨⟨row, found⟩, _⟩ := sound
          rw [before] at found
          cases found
      | insertUser | updateUser | suspend | restore | create | refuse | move | settle | sampled
      | notify | abandon | applyPrices => cases touched
    have unreleasing : write.releases emitted id world = [] := by
      unfold Write.releases
      rw [before]
      split
      · contradiction
      · rfl
    rw [output_apply applied, released_concat, empty, unreleased, stores_untouched untouched, unreleasing]
    exact ⟨rfl, rfl⟩

theorem Delivered.new (emitted : Emitted γ) (config : BrokerConfig) (cloud : γ) (clock : Nat → Time) :
    Delivered emitted [] (World.new config cloud clock) := by
  refine ⟨fun id row found => ?_, fun id row found => ?_, fun _ _ => ⟨rfl, rfl⟩⟩ <;> cases found

/-- In a run that leaves nothing out, a job's own lines in its log are what its machines put out: those
it has given up one after another, and the one it is on as far as it was read. -/
theorem output_delivered (desk : Desk γ) (emitted : Emitted γ) (emits : Emits desk.site emitted)
    (config : BrokerConfig) (cloud : γ) (clock : Nat → Time) (entries : List (Operation × Nat)) :
    let world := World.new config cloud clock
    let after := desk.after entries world
    desk.Allows (Whole emitted) entries world → ∀ id job, after.db.jobs.find id = some job →
      after.db.output id = own (released emitted id (desk.record entries world) ++
        (putOut emitted job after.cloud).take job.logsFetched) := by
  intro world after permitted
  have delivered : Delivered emitted (desk.record entries world) after := by
    refine Desk.history (runs_emitting emits) (Booked.new config cloud clock) permitted
      (Delivered.new emitted config cloud clock) ?_ ?_ ?_
    · rintro past before next quiet ⟨_, grows⟩ held
      exact held.quiet quiet grows
    · exact fun past write before error _ sound exactly failed held =>
        held.rolledBack sound exactly failed
    · exact fun past write before next booked whole sound exactly applied held =>
        held.write booked whole sound exactly applied
  exact delivered.log

/-- The club, each of its machines putting out lines of its own. -/
def Rack.printing (script : Nat → BackendStatus) (output : String → List Line) : Desk Rack where
  site :=
    { backends := [{ Rack.backend script fun _ => [] with
        fetchLogs := fun handle after rack => (.ok ((output handle).drop after), rack) }]
      latest := none
      score := fun _ _ _ => 0
      evidence := fun _ => "" }
  text _ := "refused"

theorem Rack.emits (script : Nat → BackendStatus) (output : String → List Line) :
    Emits (Rack.printing script output).site fun _ handle _ => output handle := by
  refine ⟨?_, ?_, ?_, ?_, ?_, ?_, ?_, nofun, ?_⟩
  all_goals intro backend member
  case refine_8 =>
    rw [List.mem_singleton.mp member]
    intro handle after cloud lines answer
    exact (Except.ok.inj answer).symm
  all_goals intros
  all_goals exact fun _ _ => List.prefix_rfl

/-- The club, its first machine taken away at the first look. -/
def Rack.reprinting (output : String → List Line) : Desk Rack :=
  Rack.printing (fun poll => if poll = 0 then .interrupted else .running) output

/-- A first machine that puts out nothing, and a second that puts out two lines. -/
def Rack.silentFirst (handle : String) : List Line :=
  if handle = "i-2" then [("stdout", "x"), ("stdout", "y")] else []

/-- Both lines of the second machine are in the log. -/
theorem output_delivered_silent :
    ∃ job ∈ ((Rack.reprinting Rack.silentFirst).after
        (Operation.opening ++ List.replicate 3 (.tick, 60)) (World.club .club)).db.jobs.find "job",
      job.backendHandle = some "i-2" ∧ job.logsFetched = 2 ∧
        ((Rack.reprinting Rack.silentFirst).after
          (Operation.opening ++ List.replicate 3 (.tick, 60)) (World.club .club)).db.output "job" =
          [("stdout", "x"), ("stdout", "y")] := by
  have row : ∃ job ∈ ((Rack.reprinting Rack.silentFirst).after
      (Operation.opening ++ List.replicate 3 (.tick, 60)) (World.club .club)).db.jobs.find "job",
      job.backendHandle = some "i-2" ∧ job.logsFetched = 2 := by
    decide +kernel
  obtain ⟨job, found, placed, read⟩ := row
  refine ⟨job, found, placed, read, ?_⟩
  refine (output_delivered (Rack.reprinting Rack.silentFirst) (fun _ handle _ => Rack.silentFirst handle)
    (Rack.emits _ _) .club ⟨0, 0⟩ (fun reading => reading * twelveMinutes)
    (Operation.opening ++ List.replicate 3 (.tick, 60)) (by decide +kernel) "job" job found).trans ?_
  rw [putOut, placed, read]
  decide +kernel

/-- Two machines of two and three lines. -/
def Rack.bothPrint (handle : String) : List Line :=
  if handle = "i-1" then [("stdout", "a"), ("stdout", "b")]
  else [("stdout", "x"), ("stdout", "y"), ("stdout", "z")]

example : (Rack.bothPrint "i-1").length < (Rack.bothPrint "i-2").length := by decide +kernel

/-- The cursor the first machine left at two skips the first two lines of the second. -/
theorem output_skipped :
    let world := World.club .club
    let entries := Operation.opening ++ List.replicate 3 (.tick, 60)
    let desk := Rack.reprinting Rack.bothPrint
    let after := desk.after entries world
    let emitted : Emitted Rack := fun _ handle _ => Rack.bothPrint handle
    ∃ job ∈ after.db.jobs.find "job", job.logsFetched = 3 ∧
      own (released emitted "job" (desk.record entries world) ++ putOut emitted job after.cloud) =
        [("stdout", "a"), ("stdout", "b"), ("stdout", "x"), ("stdout", "y"), ("stdout", "z")] ∧
      after.db.output "job" = [("stdout", "a"), ("stdout", "b"), ("stdout", "z")] := by
  decide +kernel

end GpuBroker.Broker
