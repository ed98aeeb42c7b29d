/-
This file is what a restart of the broker does to its view of the lab pool.

The directories of jobs are under a root that may begin with a tilde, and a
backend that was just made does not know what the tilde stands for: until the
host has been looked at, the home directory is taken to be empty. So polls and
output do not depend on what the process remembers exactly where the root has no
tilde at its front; where it has one, a job that ended well while the broker was
down is reported as killed.
-/
import GpuBroker.Broker.Lab

namespace GpuBroker.Broker

open Library

namespace Lab

/-! ### Paths -/

/-- Does a path begin at the home directory? -/
def tilded : Text → Bool
  | ['~'] => true
  | '~' :: '/' :: _ => true
  | _ => false

theorem expand_plain {path : Text} (plain : tilded path = false) (home : Text) : expand path home = path := by
  unfold expand
  split
  · cases plain
  · cases plain
  · rfl

theorem expand_tilded {path home : Text} (begins : tilded path = true) (found : home ≠ []) :
    expand path home ≠ expand path [] := by
  unfold tilded at begins
  split at begins
  · exact found
  · exact fun same => found (List.append_cancel_right (same.trans (List.nil_append _).symm))
  · cases begins

/-- A handle names the host and the job it was made of. -/
theorem split_handleOf {hostname : String} (named : '/' ∉ hostname.toList) (jobId : JobId) :
    LocalBackend.split (LocalBackend.handleOf hostname jobId) = (hostname, jobId) := by
  have text : (hostname ++ "/" ++ jobId).toList = hostname.toList ++ '/' :: jobId.toList := by
    rw [String.toList_append, String.toList_append, List.append_assoc]
    rfl
  unfold LocalBackend.split LocalBackend.handleOf
  rw [text, partition_append named]
  show (String.ofList hostname.toList, String.ofList jobId.toList) = _
  rw [String.ofList_toList, String.ofList_toList]

theorem split_unslashed (handle : String) : '/' ∉ (LocalBackend.split handle).1.toList := by
  intro slash
  have inside : '/' ∈ (String.ofList (handle.toList.takeWhile (· ≠ '/'))).toList := slash
  rw [String.toList_ofList] at inside
  have other := List.mem_takeWhile_imp inside
  simp at other

/-! ### Polls and output -/

/-- What a process has found of a host that answered a greeting. -/
structure Knows (pool : Pool) (hostname : String) (known : HostHealth) : Prop where
  remembered : pool.memory.health hostname = some known
  reached : known.state ≠ .unreachable
  home : known.home ≠ []

namespace LocalBackend

variable {backend : LocalBackend} {conditions : Conditions} {pool : Pool} {handle : String}

/-- What a poll makes of what a command came to. -/
def concluded (backend : LocalBackend) : Except String CommandResult → Observation
  | .error text => pending text
  | .ok result => backend.observed (parseUnitStatus result.stdout)

/-- What a fetch of output makes of what a command came to. -/
def gathered : Except String CommandResult → List Line
  | .error _ => []
  | .ok result => (pieces result.stdout).map fun line => ("stdout", String.ofList line)

/-- An observation bears the status that the job wrote, and is one of a completed job exactly where that is 0. -/
theorem observed_exitCode (backend : LocalBackend) (status : UnitStatus) :
    (backend.observed status).exitCode = status.exitCode ∧
      ((backend.observed status).status = .completed ↔ status.exitCode = some 0) := by
  unfold observed
  split
  · next code => exact ⟨code.symm, iff_of_true rfl code⟩
  · next code other same =>
    refine ⟨same.symm, iff_of_false (fun completed => nomatch completed) fun zero => other ?_⟩
    exact Option.some.inj (same.symm.trans zero)
  · next none =>
    have never : ¬ status.exitCode = some 0 := fun zero => by rw [none] at zero; cases zero
    split
    · exact ⟨none.symm, iff_of_false (fun completed => nomatch completed) never⟩
    · split
      · split
        · exact ⟨none.symm, iff_of_false (fun completed => nomatch completed) never⟩
        · exact ⟨none.symm, iff_of_false (fun completed => nomatch completed) never⟩
      · exact ⟨none.symm, iff_of_false (fun completed => nomatch completed) never⟩

/-- A host that was not looked at was not found unreachable. -/
theorem unlooked : ∀ health ∈ (none : Option HostHealth), health.state ≠ .unreachable := nofun

theorem poll_unconfigured (unknown : (split handle).1 ∉ backend.config.hosts) :
    ((backend.poll conditions handle).whole pool).1 =
      .ok { status := .gone, exitCode := none, detail := some s!"host {(split handle).1} is not configured" } := by
  unfold poll
  simp only [unknown, not_false_eq_true, if_true]
  rfl

/-- A host that was found unreachable is not asked. -/
theorem poll_unreachable {health : HostHealth} (configured : (split handle).1 ∈ backend.config.hosts)
    (known : pool.memory.health (split handle).1 = some health) (unreachable : health.state = .unreachable) :
    ((backend.poll conditions handle).whole pool).1 = .ok (pending health.reason) := by
  have passed : (some health).filter (fun health => health.state = .unreachable) = some health :=
    Option.filter_some_pos (by simpa using unreachable)
  unfold poll
  simp only [configured, not_true_eq_false, if_false, whole_recall, known, passed]
  rfl

/-- A poll asks for the status of the job in its directory, as far as the home of the host is known, and notes a
host that does not answer. -/
theorem whole_poll {known : Option HostHealth} (configured : (split handle).1 ∈ backend.config.hosts)
    (remembered : pool.memory.health (split handle).1 = known)
    (reached : ∀ health ∈ known, health.state ≠ .unreachable) :
    let asked := pool.answer conditions (split handle).1
      (.unitStatus (jobDir (expand backend.config.jobRoot (known.elim [] HostHealth.home)) (split handle).2))
    ((backend.poll conditions handle).whole pool).1 = .ok (backend.concluded asked.1) ∧
      ((backend.poll conditions handle).whole pool).2.machines = asked.2.machines := by
  have passed : (known.filter fun health => health.state = .unreachable) = none :=
    Option.filter_eq_none_iff.mpr fun health member => by simpa using reached health member
  have root : (backend.rootFor (split handle).1).whole pool =
      (.ok (expand backend.config.jobRoot (known.elim [] HostHealth.home)), pool) := by rw [← remembered]; rfl
  unfold poll
  simp only [configured, not_true_eq_false, if_false, whole_recall, remembered, passed]
  rw [Program.whole_bind, root]
  simp only [whole_transport_bind]
  cases (pool.answer conditions (split handle).1 (.unitStatus (jobDir
    (expand backend.config.jobRoot (known.elim [] HostHealth.home)) (split handle).2))).1 with
  | error text => exact ⟨rfl, rfl⟩
  | ok result => exact ⟨rfl, rfl⟩

/-- A fetch of output reads the output of the job in its directory, as far as the home of the host is known. -/
theorem fetchLogs_asks {known : Option HostHealth} (after : Nat)
    (configured : (split handle).1 ∈ backend.config.hosts)
    (remembered : pool.memory.health (split handle).1 = known) :
    ((backend.fetchLogs conditions handle after).whole pool).1 =
      .ok (gathered (pool.answer conditions (split handle).1 (.tailOutput
        (jobDir (expand backend.config.jobRoot (known.elim [] HostHealth.home)) (split handle).2) after)).1) := by
  have root : (backend.rootFor (split handle).1).whole pool =
      (.ok (expand backend.config.jobRoot (known.elim [] HostHealth.home)), pool) := by rw [← remembered]; rfl
  unfold fetchLogs
  simp only [configured, not_true_eq_false, if_false]
  rw [Program.whole_bind, root]
  simp only [whole_transport_bind]
  cases (pool.answer conditions (split handle).1 (.tailOutput
    (jobDir (expand backend.config.jobRoot (known.elim [] HostHealth.home)) (split handle).2) after)).1 with
  | error text => rfl
  | ok result => rfl

/-- A poll that is answered goes by the status that the job left in the directory. -/
theorem poll_answered {known : Option HostHealth} (configured : (split handle).1 ∈ backend.config.hosts)
    (remembered : pool.memory.health (split handle).1 = known)
    (reached : ∀ health ∈ known, health.state ≠ .unreachable)
    (answered : conditions.attempts pool.attempts = .answered) :
    let machine := (pool.arrived conditions).machines (split handle).1
    let root := expand backend.config.jobRoot (known.elim [] HostHealth.home)
    let manager := (conditions.facts pool.attempts (split handle).1).manager
    let shown := if manager then UnitState.shown ((machine.runs.find (split handle).2).map Run.state) else ("", "", "")
    ((backend.poll conditions handle).whole pool).1 =
      .ok (backend.observed
        { exitCode := (machine.exitFile root (split handle).2).map Int.ofNat
          activeState := shown.1, subState := shown.2.1, result := shown.2.2 }) := by
  intro machine root manager shown
  rw [(whole_poll configured remembered reached).1, answer_answered answered rfl]
  show Except.ok (backend.observed (parseUnitStatus (printed _))) = _
  rw [parse_statusEntries]
  rfl

/-- What is said of a host that is not configured does not depend on what is remembered. -/
theorem elsewhere_unseen (conditions : Conditions) (pool : Pool) (unknown : (split handle).1 ∉ backend.config.hosts) (after : Nat) :
    ((backend.poll conditions handle).whole pool.forget).1 = ((backend.poll conditions handle).whole pool).1 ∧
      ((backend.fetchLogs conditions handle after).whole pool.forget).1 =
        ((backend.fetchLogs conditions handle after).whole pool).1 := by
  unfold poll fetchLogs
  simp only [unknown, not_false_eq_true, if_true]
  exact ⟨rfl, rfl⟩

/-- Where the root does not begin at the home directory, a restart is not seen. -/
theorem restart_unseen (conditions : Conditions) {known : HostHealth} (plain : tilded backend.config.jobRoot = false)
    (knows : Knows pool (split handle).1 known) (after : Nat) :
    ((backend.poll conditions handle).whole pool.forget).1 = ((backend.poll conditions handle).whole pool).1 ∧
      ((backend.fetchLogs conditions handle after).whole pool.forget).1 =
        ((backend.fetchLogs conditions handle after).whole pool).1 := by
  by_cases configured : (split handle).1 ∈ backend.config.hosts
  · have warm : ∀ health ∈ some known, health.state ≠ .unreachable := fun health member => by
      cases member
      exact knows.reached
    rw [(whole_poll configured knows.remembered warm).1, fetchLogs_asks after configured knows.remembered,
      (whole_poll configured rfl unlooked).1, fetchLogs_asks after configured rfl, expand_plain plain, expand_plain plain,
      Pool.forget, answer_remembering conditions pool .new, answer_remembering conditions pool .new]
    exact ⟨rfl, rfl⟩
  · exact elsewhere_unseen conditions pool configured after

/-- While a host answers, a process that has just started makes of its jobs what one does that has found the
home of the host: polls and output are the same, and a job that has written status 0 is completed. -/
def RestartUnseen (backend : LocalBackend) : Prop :=
  ∀ (conditions : Conditions) (pool : Pool) (known : HostHealth) (handle : String) (after : Nat),
    (∀ number, conditions.attempts number = .answered) → Knows pool (split handle).1 known →
      ((backend.poll conditions handle).whole pool.forget).1 = ((backend.poll conditions handle).whole pool).1 ∧
        ((backend.fetchLogs conditions handle after).whole pool.forget).1 =
          ((backend.fetchLogs conditions handle after).whole pool).1 ∧
        ((split handle).1 ∈ backend.config.hosts →
          ((pool.arrived conditions).machines (split handle).1).exitFile
            (expand backend.config.jobRoot known.home) (split handle).2 = some 0 →
          ∃ observation, ((backend.poll conditions handle).whole pool.forget).1 = .ok observation ∧
            observation.status = .completed)

end LocalBackend

/-! ### A host whose home is forgotten -/

/-- A machine with a job that ended well, in its directory under a root. -/
def Machine.done (root : Text) (jobId : JobId) : Machine :=
  { Machine.new with files := ⟨[⟨root, jobId, [], none, some 0⟩], List.nodup_singleton _⟩ }

/-- A host with one card whose home is `/home/broker`. -/
def HostFacts.plain : HostFacts where
  hello := .fine "ok\n/home/broker\n".toList
  smi := .fine "0, NVIDIA RTX A6000, 49140, 1, 0, Default\n".toList
  probe := .fine "67108864\n".toList
  servers := .fine []
  started := .fine []
  manager := true
  distinct := by decide +kernel

/-- Commands are answered, hosts are plain and the clock stands still. -/
def Conditions.calm (happenings : Nat → List (JobId × Happening)) : Conditions :=
  ⟨fun _ => 0, fun _ => .answered, fun _ _ => .plain, fun number _ => happenings number⟩

/-- The pool of a process that has found the home of a host, where a job has ended well. -/
def Pool.ended (hostname : String) (home root : Text) (jobId : JobId) : Pool :=
  { Pool.new with
    machines := fun _ => .done root jobId
    memory := { Remembered.new with
      health := fun _ => some ⟨hostname, .healthy, "", 0, [], true, true, true, home⟩ } }

namespace LocalBackend

variable {backend : LocalBackend}

/-- Where the root begins at the home directory, a restart is seen on every host that a handle can name. -/
theorem restart_seen {hostname : String} (tilde : tilded backend.config.jobRoot = true)
    (configured : hostname ∈ backend.config.hosts) (named : '/' ∉ hostname.toList) :
    ¬ backend.RestartUnseen := by
  intro unseen
  have found : "/home/broker".toList ≠ [] := by decide
  have handle := split_handleOf named "job"
  let root := expand backend.config.jobRoot "/home/broker".toList
  let pool := Pool.ended hostname "/home/broker".toList root "job"
  have host : (split (handleOf hostname "job")).1 ∈ backend.config.hosts := by rw [handle]; exact configured
  have same := (unseen (.calm fun _ => []) pool _ (handleOf hostname "job") 0 (fun _ => rfl)
    ⟨rfl, nofun, found⟩).1
  rw [poll_answered host rfl unlooked rfl, poll_answered host rfl (by rintro _ ⟨⟩; nofun) rfl] at same
  have codes := congrArg Observation.exitCode (Except.ok.inj same)
  rw [(observed_exitCode _ _).1, (observed_exitCode _ _).1] at codes
  have here : (Machine.done root "job").exitFile root "job" = some 0 := by
    unfold Machine.exitFile Machine.done Table.find jobDir JobFiles.directory
    simp
  have there : (Machine.done root "job").exitFile (expand backend.config.jobRoot []) "job" = none := by
    have differs : root ≠ expand backend.config.jobRoot [] := expand_tilded tilde found
    unfold Machine.exitFile Machine.done Table.find jobDir JobFiles.directory
    simp [differs]
  rw [handle] at codes
  have codes : ((Machine.done root "job").exitFile (expand backend.config.jobRoot []) "job").map Int.ofNat =
      ((Machine.done root "job").exitFile root "job").map Int.ofNat := codes
  rw [here, there] at codes
  cases codes

/-- A restart goes unseen exactly where no host that a handle can name has its jobs under a root that begins at
the home directory. -/
theorem restart_unseen_iff (backend : LocalBackend) :
    backend.RestartUnseen ↔
      tilded backend.config.jobRoot = false ∨ ∀ hostname ∈ backend.config.hosts, '/' ∈ hostname.toList := by
  constructor
  · intro unseen
    by_contra neither
    obtain ⟨tilde, nameable⟩ := not_or.mp neither
    obtain ⟨hostname, configured, named⟩ := not_forall₂.mp nameable
    exact restart_seen (by simpa using tilde) configured named unseen
  · intro either conditions pool known handle after answered knows
    rcases either with plain | unnamed
    · obtain ⟨poll, logs⟩ := restart_unseen conditions plain knows after
      refine ⟨poll, logs, fun configured wrote => ?_⟩
      rw [expand_plain plain] at wrote
      rw [poll_answered configured rfl unlooked (answered _)]
      refine ⟨_, rfl, (observed_exitCode _ _).2.mpr ?_⟩
      show (((pool.arrived conditions).machines (split handle).1).exitFile
        (expand backend.config.jobRoot []) (split handle).2).map Int.ofNat = some 0
      rw [expand_plain plain, wrote]
      rfl
    · have unknown : (split handle).1 ∉ backend.config.hosts :=
        fun configured => split_unslashed handle (unnamed _ configured)
      obtain ⟨poll, logs⟩ := elsewhere_unseen conditions pool unknown after
      exact ⟨poll, logs, fun configured => absurd configured unknown⟩

end LocalBackend

/-! ### A job that ended while the broker was down -/

/-- A time as a text: the number of its microseconds. -/
def clockStamps : Stamps where
  toIso moment := moment.repr
  fromIso text := integer text.toList
  fromIso_toIso := integer_repr_int

/-- The backend as it is set up by default, with one host. -/
def LocalBackend.usual : LocalBackend where
  name := "local"
  config :=
    { hosts := ["lab-1"], gpuType := "a6000", maxJobsPerGpu := 2, jobRoot := "~/.gpu-broker/jobs".toList
      defaultGpuMemoryMb := 16384, defaultMemoryMaxMb := 32768, defaultCpuQuotaPercent := 400
      healthInterval := 120000000, positive := by decide, distinct := List.nodup_singleton _ }
  stamps := clockStamps

/-- A job for the lab pool. -/
def Job.forLab (id : JobId) : Job :=
  NewJob.row ⟨id, "ann", "train", "a6000", 4, .gpuHour, 1, none, "real"⟩ .queued 0

/-- The job begins and ends well before the command of the number arrives. -/
def Conditions.ending (number : Nat) (job : JobId) : Conditions :=
  .calm fun current =>
    if current = number then [(job, .began), (job, .tagged), (job, .opened), (job, .exited 0)] else []

/-- A job that has written status 0 is completed for the process that launched it, and was killed for the one
that comes after it. -/
theorem done_misread :
    let launched := (LocalBackend.usual.launch (.ending 7 "job") (Job.forLab "job")).whole Pool.new
    let poll := LocalBackend.usual.poll (.ending 7 "job") "lab-1/job"
    launched.1 = .ok ⟨"lab-1/job", "a6000"⟩ ∧
      (poll.whole launched.2).1 = .ok ⟨.completed, some 0, some "exited cleanly"⟩ ∧
      (poll.whole launched.2.forget).1 = .ok ⟨.failed, none, some ("the unit is inactive (success) and wrote no " ++
        "exit status, so it was killed rather than finishing")⟩ := by
  refine ⟨?_, ?_, ?_⟩ <;> decide +kernel

end Lab

end GpuBroker.Broker
