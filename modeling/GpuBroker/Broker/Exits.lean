/-
This file is the exit statuses that polls of the lab pool report.

All runs of a job share a directory, and a run leaves its status there for good.
So a job that is launched again after it has ended by itself finds the status of
the run before, and polls report that one. As long as every run is started where
no run of the job has left a status, what a poll reports is the status of the
latest run, which has ended.
-/
import GpuBroker.Broker.Errands
import GpuBroker.Broker.Homes

namespace GpuBroker.Broker

open Library

namespace Lab

/-! ### Machines -/

/-- The statuses on a machine are those of the latest runs, and of none that is still known to the manager of
services. -/
structure Machine.Current (machine : Machine) : Prop where
  reported : ∀ root job status, machine.exitFile root job = some status → machine.outcomes job = some status
  running : ∀ root job, (machine.runs.find job).isSome → machine.exitFile root job = none

namespace Machine

variable {machine after : Machine}

theorem Current.new : Machine.new.Current := ⟨nofun, fun _ _ _ => rfl⟩

/-- A machine with the same statuses, where no run was started. -/
theorem Current.kept (current : machine.Current)
    (exits : ∀ root job, after.exitFile root job = machine.exitFile root job)
    (outcomes : after.outcomes = machine.outcomes)
    (runs : ∀ job, (after.runs.find job).isSome → (machine.runs.find job).isSome) : after.Current where
  reported root job status same := by
    rw [outcomes]
    exact current.reported root job status ((exits root job).symm.trans same)
  running root job known := (exits root job).trans (current.running root job (runs job known))

theorem find_setState (job other : JobId) (state : UnitState) :
    ((machine.setState job state).runs.find other).isSome = (machine.runs.find other).isSome := by
  unfold setState
  rw [Table.find_modify]
  split
  · exact Option.isSome_map
  · rfl

theorem Current.setState (current : machine.Current) (job : JobId) (state : UnitState) :
    (machine.setState job state).Current :=
  current.kept (fun _ _ => rfl) rfl fun other known => (find_setState job other state).symm.trans known

theorem Current.unload (current : machine.Current) (job : JobId) : (machine.unload job).Current := by
  refine current.kept (fun _ _ => rfl) rfl fun other known => ?_
  have known : ((machine.runs.erase fun run => run.jobId = job).find other).isSome = true := known
  rw [Table.find_erase] at known
  obtain ⟨run, found⟩ := Option.isSome_iff_exists.mp known
  exact Option.isSome_iff_exists.mpr ⟨run, (Option.filter_eq_some_iff.mp found).1⟩

/-- What a machine has in a directory after files were changed there. -/
theorem exitFile_write (run : Run) (change : JobFiles → JobFiles)
    (same : ∀ files, (change files).directory = files.directory) (root : Text) (job : JobId) :
    (machine.write run change same).exitFile root job =
      if jobDir root job = jobDir run.root run.jobId then
        ((machine.files.find (jobDir root job)).map change).bind JobFiles.exit
      else machine.exitFile root job := by
  unfold exitFile write
  rw [Table.find_modify]
  split
  · rfl
  · rfl

/-- Changes to files that leave the status alone. -/
theorem Current.write (current : machine.Current) (run : Run) (change : JobFiles → JobFiles)
    (same : ∀ files, (change files).directory = files.directory) (kept : ∀ files, (change files).exit = files.exit) :
    (machine.write run change same).Current := by
  refine current.kept (fun root job => ?_) rfl fun _ known => known
  rw [exitFile_write]
  split
  · unfold exitFile
    cases machine.files.find (jobDir root job) with
    | none => rfl
    | some files => exact kept files
  · rfl

/-- A run that writes its tags leaves a status of an earlier one where it is. -/
theorem Current.tag (current : machine.Current) (run : Run) : (machine.tag run).Current := by
  refine current.kept (fun root job => ?_) rfl fun _ known => known
  unfold Machine.exitFile Machine.tag
  rw [Table.find_put]
  split
  · next here =>
    have here : jobDir root job = jobDir run.root run.jobId := here
    rw [here]
    rfl
  · rfl

/-- A run that ends by itself leaves its own status, and none was there before. -/
theorem Current.exit (current : machine.Current) {run : Run} (known : machine.runs.find run.jobId = some run)
    (status : Nat) : (machine.exit run status).Current := by
  have clear : ∀ root, machine.exitFile root run.jobId = none := fun root =>
    current.running root run.jobId (Option.isSome_of_mem known)
  unfold Machine.exit
  cases found : machine.files.find (jobDir run.root run.jobId) with
  | none => exact current.setState _ _
  | some files =>
      have exits : ∀ root job, (machine.write run (fun files => files.ended status)
          fun files => files.directory_ended status).exitFile root job =
          if jobDir root job = jobDir run.root run.jobId then some status else machine.exitFile root job := by
        intro root job
        rw [exitFile_write]
        split
        · next here =>
          rw [here, found]
          rfl
        · rfl
      refine ⟨fun root job other same => ?_, fun root job there => ?_⟩
      · have same := (exits root job).symm.trans same
        show Function.update machine.outcomes run.jobId (some status) job = some other
        by_cases mine : job = run.jobId
        · subst mine
          rw [Function.update_self]
          split at same
          · exact same
          · exact absurd same (by rw [clear root]; nofun)
        · have elsewhere : jobDir root job ≠ jobDir run.root run.jobId := fun equal => mine (congrArg Prod.snd equal)
          rw [if_neg elsewhere] at same
          rw [Function.update_of_ne mine]
          exact current.reported root job other same
      · have left : ((machine.runs.erase fun other => other.jobId = run.jobId).find job).isSome = true := there
        rw [Table.find_erase] at left
        obtain ⟨other, kept⟩ := Option.isSome_iff_exists.mp left
        obtain ⟨found, apart⟩ := Option.filter_eq_some_iff.mp kept
        have mine : job ≠ run.jobId := by
          intro same
          rw [Table.find_key found] at apart
          simp [same] at apart
        have elsewhere : jobDir root job ≠ jobDir run.root run.jobId := fun equal => mine (congrArg Prod.snd equal)
        refine (exits root job).trans ((if_neg elsewhere).trans ?_)
        exact current.running root job (Option.isSome_of_mem found)

/-- Whatever happens to a run, statuses stay those of the latest runs. -/
theorem Current.happen (current : machine.Current) (event : JobId × Happening) : (machine.happen event).Current := by
  unfold Machine.happen
  cases found : machine.runs.find event.1 with
  | none => exact current
  | some run =>
      have mine : run.jobId = event.1 := Table.find_key found
      simp only
      split
      · exact current
      · split
        · split
          · exact current.setState _ _
          · exact current
        · exact current.tag run
        · exact current.write run _ _ fun _ => rfl
        · exact current.write run _ _ fun _ => rfl
        · exact current.exit (mine ▸ found) _
        · exact current.setState _ _
        · exact current.setState _ _
        · split
          · exact current.unload _
          · exact current

/-- A run is started where none of its job has left a status. -/
theorem Current.start (current : machine.Current) {run : Run}
    (clean : machine.runs.find run.jobId = none → ∀ root, machine.exitFile root run.jobId = none) :
    (machine.start run).Current := by
  unfold Machine.start
  cases inserted : machine.runs.insert run with
  | none => exact current
  | some runs =>
      have clear := clean (Table.insert_eq_some inserted).1
      refine ⟨fun root job status same => ?_, fun root job there => ?_⟩
      · have same : machine.exitFile root job = some status := same
        show Function.update machine.outcomes run.jobId none job = some status
        have other : job ≠ run.jobId := by
          rintro rfl
          rw [clear root] at same
          cases same
        rw [Function.update_of_ne other]
        exact current.reported root job status same
      · have there : (runs.find job).isSome = true := there
        show machine.exitFile root job = none
        rw [Table.find_insert inserted] at there
        split at there
        · next same => exact same ▸ clear root
        · exact current.running root job there

end Machine

/-! ### Runs -/

/-- Is the run that an attempt starts, if it starts one, started where no run of the job has left a status? -/
def startsClean (conditions : Conditions) (sent : Sent) (pool : Pool) : Bool :=
  match sent.command with
  | .launch run =>
      let machine := (pool.arrived conditions).machines sent.hostname
      let started := (conditions.attempts pool.attempts).took &&
        (conditions.facts pool.attempts sent.hostname).manager && (machine.runs.find run.jobId).isNone
      !started || machine.files.rows.all fun files => files.jobId ≠ run.jobId || files.exit.isNone
  | _ => true

/-- The statuses on every machine are those of the latest runs. -/
def Pool.Current (pool : Pool) : Prop := ∀ hostname, (pool.machines hostname).Current

variable {conditions : Conditions} {pool : Pool}

theorem Pool.Current.arrived (current : pool.Current) : (pool.arrived conditions).Current := by
  have happened : ∀ (events : List (JobId × Happening)) (machine : Machine), machine.Current →
      (events.foldl Machine.happen machine).Current := by
    intro events
    induction events with
    | nil => exact fun _ current => current
    | cons event events inductionHypothesis => exact fun machine current => inductionHypothesis _ (current.happen event)
  exact fun hostname => happened _ _ (current hostname)

/-- A job that left no status in any of the directories of a machine. -/
theorem exitFile_none {machine : Machine} {job : JobId}
    (none_ : ∀ files ∈ machine.files.rows, files.jobId ≠ job ∨ files.exit = none) (root : Text) :
    machine.exitFile root job = none := by
  unfold Machine.exitFile
  cases found : machine.files.find (jobDir root job) with
  | none => rfl
  | some files =>
      rcases none_ files (Table.find_mem found) with other | empty
      · exact absurd (congrArg Prod.snd (Table.find_key found)) other
      · exact empty

/-- An attempt that starts a run starts it where none of its job has left a status. -/
theorem Pool.Current.tried {sent : Sent} (current : pool.Current) (clean : startsClean conditions sent pool = true) :
    (pool.tried conditions sent).Current := by
  have here : (pool.arrived conditions).Current := current.arrived
  intro hostname
  unfold Pool.tried
  simp only
  split
  · next took =>
    show (Function.update (pool.arrived conditions).machines sent.hostname _ hostname).Current
    by_cases same : hostname = sent.hostname
    · subst same
      rw [Function.update_self]
      have machine := here sent.hostname
      cases asked : sent.command with
      | launch run =>
          unfold startsClean at clean
          simp only [asked, took, Bool.true_and] at clean
          unfold Machine.effect
          simp only
          split
          · next manager =>
            refine machine.start fun unknown root => exitFile_none (fun files member => ?_) root
            simp only [manager, unknown, Option.isNone_none, Bool.and_self, Bool.not_true, Bool.false_or,
              List.all_eq_true, Bool.or_eq_true, decide_eq_true_eq, Option.isNone_iff_eq_none] at clean
            exact clean files member
          · exact machine
      | stopUnit jobId =>
          unfold Machine.effect
          simp only
          split
          · exact machine.unload jobId
          · exact machine
      | _ => exact machine
    · rw [Function.update_of_ne same]
      exact here hostname
  · exact here hostname

/-- The contract of the calls of a process that is alone: statuses are those of the latest runs as long as runs
are started where none of their jobs has left a status. -/
def reporting (conditions : Conditions) : Contract Pool Sent String where
  rely := fun before after => after = before
  guarantee := fun _ _ _ => True
  invariant := fun pool => pool.Filed ∧ pool.Current
  allowed := fun sent pool => startsClean conditions sent pool = true
  raises := fun _ => True
  refl := fun _ => rfl
  trans := fun first second => second.trans first

theorem tried_filed (filed : pool.Filed) (sent : Sent) : (pool.tried conditions sent).Filed := by
  have same : (pool.tried conditions sent).memory = pool.memory := by
    unfold Pool.tried
    simp only
    split
    · rfl
    · rfl
  intro hostname health remembered
  rw [same] at remembered
  exact filed hostname health remembered

theorem carries_reporting (conditions : Conditions) : CarriesAll conditions (reporting conditions) where
  alone := fun _ _ same => same
  raises := fun _ => trivial
  filed := fun _ kept => kept.1
  notes := fun before after noted kept =>
    ⟨⟨noted.filed kept.1, fun hostname => by rw [noted.machines]; exact kept.2 hostname⟩, trivial⟩
  tries := fun _ sent _ kept clean => ⟨⟨tried_filed kept.1 sent, kept.2.tried clean⟩, trivial⟩
  starts := fun _ sent _ kept clean => ⟨⟨tried_filed kept.1 sent, kept.2.tried clean⟩, trivial⟩

/-- Calls one after another, each stopped after a number of accesses. -/
def calls (backend : LocalBackend) (conditions : Conditions) (entries : List (Call × Nat)) : List (Ssh Unit × Nat) :=
  entries.map fun entry => (entry.1.program backend conditions, entry.2)

/-- The rule of runs: what a contract that carries every access keeps holds after any calls. -/
theorem CarriesAll.sequence {contract : Contract Pool Sent String} (carries : CarriesAll conditions contract)
    {backend : LocalBackend} {entries : List (Call × Nat)} (kept : contract.invariant pool)
    (permitted : Program.AllAllowed contract.allowed (calls backend conditions entries) pool) :
    contract.invariant (Program.sequence (calls backend conditions entries) pool) := by
  refine (Program.Safe.sequence (fun entry member state _ => ?_) kept permitted).1
  obtain ⟨called, _, rfl⟩ := List.mem_map.mp member
  exact carries.call called.1

/-- What is heard of the status of a unit is what the machine says then, or nothing. -/
theorem hears_unitStatus {hostname : String} {directory : Text × JobId} {again : Bool} {result : CommandResult}
    (heard : pool.hears conditions ⟨hostname, .unitStatus directory, again⟩ = .result result) :
    (∃ manager, result.stdout = printed (entryLines
      (((pool.tried conditions ⟨hostname, .unitStatus directory, again⟩).machines hostname).statusEntries
        manager directory))) ∨ result.stdout = [] := by
  unfold Pool.hears at heard
  split at heard
  · next answered =>
    cases heard
    refine Or.inl ⟨(conditions.facts pool.attempts hostname).manager, ?_⟩
    unfold Pool.tried
    simp only [answered, Attempt.took, if_true, Function.update_self]
    rfl
  · cases heard
    exact Or.inr rfl
  · cases heard
  · cases heard

/-- A status that is read of what is heard of a unit is the one in the directory. -/
theorem status_heard {hostname : String} {directory : Text × JobId} {result : CommandResult} {code : Int}
    (answered : (pool.answer conditions hostname (.unitStatus directory)).1 = .ok result)
    (read : (parseUnitStatus result.stdout).exitCode = some code) :
    ∃ status : Nat, code = status ∧ ((pool.answer conditions hostname (.unitStatus directory)).2.machines
      hostname).exitFile directory.1 directory.2 = some status := by
  obtain ⟨earlier, again, _, heard, left⟩ := answer_heard answered
  rcases hears_unitStatus heard with ⟨manager, said⟩ | nothing
  · rw [said, parse_statusEntries] at read
    obtain ⟨status, here, same⟩ := Option.map_eq_some_iff.mp read
    exact ⟨status, same.symm, left ▸ here⟩
  · have silent : (parseUnitStatus []).exitCode = none := by decide
    rw [nothing, silent] at read
    cases read

/-- A command that starts nothing leaves statuses those of the latest runs. -/
theorem Pool.Current.answer {hostname : String} {command : Command} (plain : command.starts = false)
    (current : pool.Current) : (pool.answer conditions hostname command).2.Current := by
  have clean : ∀ (pool : Pool) again, startsClean conditions ⟨hostname, command, again⟩ pool = true := by
    intro pool again
    unfold startsClean
    cases command with
    | launch run => cases plain
    | _ => rfl
  have tried : ∀ (pool : Pool) again, pool.Current → (pool.tried conditions ⟨hostname, command, again⟩).Current :=
    fun pool again current => current.tried (clean pool again)
  unfold Pool.answer
  simp only
  split
  · exact tried _ _ current
  · exact tried _ _ current
  · split
    · exact tried _ _ (tried _ _ current)
    · exact tried _ _ (tried _ _ current)
    · exact tried _ _ (tried _ _ current)

/-- A poll reports a status that a run of the job has left, and a job is completed exactly with status 0. -/
theorem poll_status {backend : LocalBackend} {handle : String} {observation : Observation}
    (polled : ((backend.poll conditions handle).whole pool).1 = .ok observation) :
    let last := ((backend.poll conditions handle).whole pool).2
    (observation.status = .completed → observation.exitCode = some 0) ∧
      ∀ code, observation.exitCode = some code → ∃ root, ∃ status : Nat, code = status ∧
        (last.machines (LocalBackend.split handle).1).exitFile root (LocalBackend.split handle).2 = some status ∧
        (pool.Current → last.Current) := by
  intro last
  by_cases configured : (LocalBackend.split handle).1 ∈ backend.config.hosts
  · by_cases reached : ∀ health ∈ pool.memory.health (LocalBackend.split handle).1, health.state ≠ .unreachable
    · let root := expand backend.config.jobRoot
        ((pool.memory.health (LocalBackend.split handle).1).elim [] HostHealth.home)
      let asked := pool.answer conditions (LocalBackend.split handle).1
        (.unitStatus (jobDir root (LocalBackend.split handle).2))
      obtain ⟨concluded, machines⟩ : ((backend.poll conditions handle).whole pool).1 = .ok (backend.concluded asked.1) ∧
          ((backend.poll conditions handle).whole pool).2.machines = asked.2.machines :=
        LocalBackend.whole_poll configured rfl reached
      have machines : last.machines = asked.2.machines := machines
      have same := Except.ok.inj (polled.symm.trans concluded)
      cases answered : asked.1 with
      | error text =>
          rw [answered] at same
          subst same
          exact ⟨nofun, nofun⟩
      | ok result =>
          rw [answered] at same
          have reads := LocalBackend.observed_exitCode backend (parseUnitStatus result.stdout)
          have same : observation = backend.observed (parseUnitStatus result.stdout) := same
          subst same
          refine ⟨fun completed => reads.1.trans (reads.2.mp completed), fun code read => ?_⟩
          obtain ⟨status, is, left⟩ := status_heard answered (reads.1.symm.trans read)
          refine ⟨root, status, is, ?_, fun current hostname => ?_⟩
          · rw [machines]
            exact left
          · rw [machines]
            exact current.answer rfl hostname
    · obtain ⟨health, known, unreachable⟩ : ∃ health, pool.memory.health (LocalBackend.split handle).1 = some health ∧
          health.state = .unreachable := by simpa using reached
      have same := Except.ok.inj ((LocalBackend.poll_unreachable configured known unreachable).symm.trans polled)
      subst same
      exact ⟨nofun, nofun⟩
  · have same := Except.ok.inj ((LocalBackend.poll_unconfigured configured).symm.trans polled)
    subst same
    exact ⟨nofun, nofun⟩

/-- What a poll reports of a job that has ended by itself is how its latest run has. -/
theorem poll_reports (backend : LocalBackend) (conditions : Conditions) (entries : List (Call × Nat))
    (clean : Program.AllAllowed (fun sent pool => startsClean conditions sent pool = true)
      (calls backend conditions entries) Pool.new)
    (handle : String) (observation : Observation)
    (polled : ((backend.poll conditions handle).whole
      (Program.sequence (calls backend conditions entries) Pool.new)).1 = .ok observation) :
    let last := ((backend.poll conditions handle).whole
      (Program.sequence (calls backend conditions entries) Pool.new)).2
    let outcome := (last.machines (LocalBackend.split handle).1).outcomes (LocalBackend.split handle).2
    (∀ code, observation.exitCode = some code → ∃ status : Nat, outcome = some status ∧ code = status) ∧
      (observation.status = .completed → outcome = some 0) := by
  have start : Pool.new.Filed ∧ Pool.new.Current := ⟨nofun, fun _ => Machine.Current.new⟩
  have current := ((carries_reporting conditions).sequence start clean).2
  intro last outcome
  obtain ⟨completed, statuses⟩ := poll_status polled
  have reported : ∀ code, observation.exitCode = some code → ∃ status : Nat, outcome = some status ∧
      code = status := by
    intro code same
    obtain ⟨root, status, is, left, keeps⟩ := statuses code same
    exact ⟨status, (keeps current _).reported root _ status left, is⟩
  refine ⟨reported, fun done => ?_⟩
  obtain ⟨status, outcome, zero⟩ := reported 0 (completed done)
  rw [outcome, ← Int.ofNat_eq_zero.mp zero.symm]

/-- The broker launches a job. -/
def launchedOnce : List (Call × Nat) := [(.launch (Job.forLab "job"), 100)]

/-- The status of a job that is launched once and ends well is reported. -/
theorem poll_reports_once :
    let launched := Program.sequence (calls .usual (.ending 7 "job") launchedOnce) Pool.new
    ((((LocalBackend.usual.poll (.ending 7 "job") "lab-1/job").whole launched).2.machines
      (LocalBackend.split "lab-1/job").1).outcomes (LocalBackend.split "lab-1/job").2) = some 0 := by
  have clean : Program.AllAllowed (fun sent pool => startsClean (.ending 7 "job") sent pool = true)
      (calls .usual (.ending 7 "job") launchedOnce) Pool.new := by decide +kernel
  have polled : ((LocalBackend.usual.poll (.ending 7 "job") "lab-1/job").whole
      (Program.sequence (calls .usual (.ending 7 "job") launchedOnce) Pool.new)).1 =
        .ok ⟨.completed, some 0, some "exited cleanly"⟩ := by decide +kernel
  exact (poll_reports .usual (.ending 7 "job") launchedOnce clean "lab-1/job" _ polled).2 rfl

/-- The broker launches a job, and again after a restart. -/
def launchedAgain : List (Call × Nat) :=
  [(.launch (Job.forLab "job"), 100), (.restart, 1), (.launch (Job.forLab "job"), 100)]

example : launchedOnce.length < launchedAgain.length := by decide +kernel

/-- A job that has ended before it is launched again is reported as completed while its run has just begun. -/
theorem relaunch_misread :
    let launched := Program.sequence (calls .usual (.ending 7 "job") launchedAgain) Pool.new
    let polled := (LocalBackend.usual.poll (.ending 7 "job") "lab-1/job").whole launched
    polled.1 = .ok ⟨.completed, some 0, some "exited cleanly"⟩ ∧
      (polled.2.machines "lab-1").outcomes "job" = none ∧
      ((polled.2.machines "lab-1").runs.find "job").map Run.state = some .activating := by
  refine ⟨?_, ?_, ?_⟩ <;> decide +kernel

end Lab

end GpuBroker.Broker
