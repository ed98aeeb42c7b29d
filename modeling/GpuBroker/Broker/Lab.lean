/-
This file is the lab pool: machines of the club's own with the jobs on them, what
one process remembers of them, and the methods of the backend as programs of
commands that are run there over SSH.

A command may be answered, may fail before or after it took effect, and is tried
a second time where the connection broke. Between commands the jobs on the
machines get on by themselves: they write their tags and output, and end or are
killed. What the commands print is text, and is read as the broker reads it.
-/
import GpuBroker.Library.Program
import GpuBroker.Broker.Ec2
import GpuBroker.Broker.Environments

namespace GpuBroker.Broker

open Library

namespace Lab

/-- A text, letter by letter. -/
abbrev Text := List Char

/-! ### Texts and what is read of them -/

/-- What comes before the first mark of a text, and what comes after it. -/
def partition (mark : Char) (text : Text) : Text × Text :=
  (text.takeWhile (· ≠ mark), (text.dropWhile (· ≠ mark)).drop 1)

/-- A number in digits. -/
def natural (digits : Text) : Option Nat :=
  if digits ≠ [] ∧ digits.all Char.isDigit then some (Nat.ofDigitChars 10 digits 0) else none

/-- A number as the scripts write it. -/
def integer (text : Text) : Option Int :=
  match strip text with
  | '-' :: digits => (natural digits).map fun number => -(number : Int)
  | '+' :: digits => (natural digits).map Int.ofNat
  | digits => (natural digits).map Int.ofNat

/-- The lines of a text without the whitespace around it. -/
def strippedLines (text : Text) : List Text := pieces (strip text)

/-- What a command came to. -/
structure CommandResult where
  exitStatus : Int
  stdout : Text
  stderr : Text
  deriving DecidableEq

namespace CommandResult

def ok (result : CommandResult) : Bool := result.exitStatus = 0

/-- What a command that failed has to say, in lines. -/
def detail (result : CommandResult) : List Text :=
  strippedLines (if result.stderr ≠ [] then result.stderr else result.stdout)

end CommandResult

/-- The home directory that a host answers a greeting with. -/
def parseHello (stdout : Text) : Option Text :=
  match (strippedLines stdout).map strip with
  | greeting :: home :: _ => if greeting = "ok".toList ∧ home ≠ [] then some home else none
  | _ => none

/-- A path with the home directory in place of a tilde at its front. -/
def expand (path home : Text) : Text :=
  match path with
  | ['~'] => home
  | '~' :: '/' :: rest => home ++ '/' :: rest
  | _ => path

/-- The limit that a scope reported. -/
def parseLimitProbe (stdout : Text) : Option Int := (strippedLines stdout).getLast?.bind integer

/-- A line that gives a key its value. -/
def entry (key value : String) : Text := key.toList ++ '=' :: value.toList

/-- Keys with their values, in lines. -/
def entryLines (entries : List (String × String)) : List Text := entries.map fun each => entry each.1 each.2

/-- Keys with their values, the last line for each key first. -/
abbrev Fields := List (Text × Text)

/-- The fields with those of a line set. -/
def Fields.read (fields : Fields) (line : Text) : Fields :=
  if '=' ∈ line then
    let halves := partition '=' line
    (strip halves.1, strip halves.2) :: fields
  else fields

/-- The value of a field. -/
def Fields.get (fields : Fields) (key : String) : Option Text := fields.lookup key.toList

/-- What the manager of services says of a unit, and what the job itself wrote when it ended. -/
structure UnitStatus where
  exitCode : Option Int
  activeState : String
  subState : String
  result : String
  deriving DecidableEq

def UnitStatus.wasOomKilled (status : UnitStatus) : Bool := status.result = "oom-kill"

def parseUnitStatus (stdout : Text) : UnitStatus :=
  let fields := (strippedLines stdout).foldl Fields.read []
  { exitCode := (fields.get "exitfile").bind integer
    activeState := .ofList ((fields.get "ActiveState").getD [])
    subState := .ofList ((fields.get "SubState").getD [])
    result := .ofList ((fields.get "Result").getD []) }

/-- The jobs of a listing from a line on, the one that the line belongs to first. -/
def jobsFrom (current : Option Fields) : List Text → List Fields
  | [] => current.toList
  | line :: lines =>
      if "### ".toList.isPrefixOf line then
        current.toList ++ jobsFrom (some [("job-id".toList, strip (line.drop 4))]) lines
      else jobsFrom (current.map fun job => job.read line) lines

/-- The jobs of a listing, each with its tags. -/
def parseLiveJobs (stdout : Text) : List Fields := jobsFrom none (pieces stdout)

/-- The tags of a job on a machine, as lines. -/
def metaLines (jobId userId launchedAt : String) (gpu : Int) : List Text :=
  entryLines [("job-id", jobId), ("user", userId), ("launched-at", launchedAt), ("gpu", gpu.repr)]

/-! ### Machines -/

structure GpuInfo where
  index : Int
  computeMode : String
  deriving DecidableEq

/-- MPS needs to be able to open the device. -/
def GpuInfo.supportsMps (gpu : GpuInfo) : Bool :=
  gpu.computeMode ∈ ["Default", "Exclusive_Process", "Exclusive_Thread"]

/-- Is a text a measure as the driver writes one, perhaps with a fraction? -/
def measured (text : Text) : Bool :=
  let halves := partition '.' text
  (natural halves.1).isSome && halves.2.all Char.isDigit

/-- The cards of a listing; a line that does not read as a card is passed over. -/
def parseGpus (stdout : Text) : List GpuInfo :=
  (strippedLines stdout).filterMap fun line =>
    match (line.splitOn ',').map strip with
    | index :: _name :: total :: used :: utilization :: mode :: _ =>
        if measured total && measured used && measured utilization then
          (integer index).map fun index => ⟨index, .ofList mode⟩
        else none
    | _ => none

/-- How the run of a unit failed. -/
inductive UnitResult where
  | exitCode
  | signal
  | coreDump
  | oomKill
  | timeout
  | resources
  deriving DecidableEq

def UnitResult.text : UnitResult → String
  | exitCode => "exit-code"
  | signal => "signal"
  | coreDump => "core-dump"
  | oomKill => "oom-kill"
  | timeout => "timeout"
  | resources => "resources"

/-- Where a unit is that the manager of services knows. -/
inductive UnitState where
  | activating
  | active
  | deactivating
  | failed (result : UnitResult)
  deriving DecidableEq

namespace UnitState

/-- Is the process of a unit still there? -/
def live : UnitState → Bool
  | failed _ => false
  | _ => true

/-- What `systemctl show` says of a unit: its state, what it is doing there, and its result. A unit that is not
known is inactive. -/
def shown : Option UnitState → String × String × String
  | none => ("inactive", "dead", "success")
  | some activating => ("activating", "start", "success")
  | some active => ("active", "running", "success")
  | some deactivating => ("deactivating", "stop-sigterm", "success")
  | some (failed result) => ("failed", "failed", result.text)

end UnitState

/-- The run of a job: its unit is named after the job, and its files are in the directory of the job under a
root. -/
structure Run where
  jobId : JobId
  root : Text
  tags : List Text
  device : Int
  state : UnitState
  deriving DecidableEq

/-- What is in the directory of a job under a root. -/
structure JobFiles where
  root : Text
  jobId : JobId
  tags : List Text
  output : Option (List UInt8)
  exit : Option Nat
  deriving DecidableEq

/-- The directory of some files. No identifier has a slash in it. -/
def JobFiles.directory (files : JobFiles) : Text × JobId := (files.root, files.jobId)

/-- The files after the run left its status. -/
def JobFiles.ended (files : JobFiles) (status : Nat) : JobFiles := { files with exit := some status }

theorem JobFiles.directory_ended (files : JobFiles) (status : Nat) :
    (files.ended status).directory = files.directory := rfl

def jobDir (root : Text) (jobId : JobId) : Text × JobId := (root, jobId)

/-- A machine: the units of jobs that its manager of services knows, and the directories of jobs; beside, the
status that the latest run of each job ended with, when it ended by itself. -/
structure Machine where
  runs : Table Run Run.jobId
  files : Table JobFiles JobFiles.directory
  outcomes : JobId → Option Nat

namespace Machine

/-- A machine that no job was on. -/
def new : Machine := ⟨.empty, .empty, fun _ => none⟩

/-- The status that a run of a job left in a directory. -/
def exitFile (machine : Machine) (root : Text) (jobId : JobId) : Option Nat :=
  (machine.files.find (jobDir root jobId)).bind JobFiles.exit

/-- The jobs whose processes are on a card. -/
def liveOn (machine : Machine) (device : Int) : List Run :=
  machine.runs.rows.filter fun run => run.state.live && run.device = device

/-- The jobs whose processes are there, each with its card. -/
def present (machine : Machine) : List (JobId × Int) :=
  (machine.runs.rows.filter fun run => run.state.live).map fun run => (run.jobId, run.device)

end Machine

/-! ### What happens on a machine -/

/-- What a run does by itself. -/
inductive Happening where
  | began
  | tagged
  | opened
  | printed (bytes : List UInt8)
  | exited (status : Nat)
  | stopping
  | killed (result : UnitResult)
  | gone
  deriving DecidableEq

namespace Machine

/-- The machine with the state of a unit set. -/
def setState (machine : Machine) (job : JobId) (state : UnitState) : Machine :=
  { machine with runs := machine.runs.modify job fun run => { run with state } }

/-- The machine without a unit. -/
def unload (machine : Machine) (job : JobId) : Machine :=
  { machine with runs := machine.runs.erase fun run => run.jobId = job }

/-- The machine with the files of a directory changed. -/
def write (machine : Machine) (run : Run) (change : JobFiles → JobFiles)
    (same : ∀ files, (change files).directory = files.directory) : Machine :=
  { machine with files := machine.files.modify (jobDir run.root run.jobId) change same }

/-- The machine when a run has made its directory and written its tags there; what an earlier run left
stays. -/
def tag (machine : Machine) (run : Run) : Machine :=
  let before := machine.files.find (jobDir run.root run.jobId)
  { machine with
    files := machine.files.put
      ⟨run.root, run.jobId, run.tags, before.bind JobFiles.output, before.bind JobFiles.exit⟩ }

/-- The machine when a run has ended by itself: it writes its status to its directory, and where it has
none it fails. -/
def exit (machine : Machine) (run : Run) (status : Nat) : Machine :=
  match machine.files.find (jobDir run.root run.jobId) with
  | none => machine.setState run.jobId (.failed .exitCode)
  | some _ =>
      let written := machine.write run (fun files => files.ended status) fun files => files.directory_ended status
      { written.unload run.jobId with outcomes := Function.update machine.outcomes run.jobId (some status) }

/-- The machine after something happened to the run of a job; nothing does when its process is not there. -/
def happen (machine : Machine) (event : JobId × Happening) : Machine :=
  match machine.runs.find event.1 with
  | none => machine
  | some run =>
      if !run.state.live then machine
      else
        match event.2 with
        | .began => if run.state = .activating then machine.setState event.1 .active else machine
        | .tagged => machine.tag run
        | .opened => machine.write run (fun files => { files with output := some [] }) fun _ => rfl
        | .printed bytes =>
            machine.write run (fun files => { files with output := files.output.map (· ++ bytes) }) fun _ => rfl
        | .exited status => machine.exit run status
        | .stopping => machine.setState event.1 .deactivating
        | .killed result => machine.setState event.1 (.failed result)
        | .gone => if run.state = .deactivating then machine.unload event.1 else machine

end Machine

/-! ### Commands -/

/-- What is run on a machine. -/
inductive Command where
  | hello
  | gpuQuery
  | limitProbe
  | mpsRunning
  | mpsStart
  | launch (run : Run)
  | unitStatus (directory : Text × JobId)
  | tailOutput (directory : Text × JobId) (after : Nat)
  | stopUnit (jobId : JobId)
  | listLiveJobs (root : Text)
  deriving DecidableEq

/-- What a machine has to say of itself, and whether its manager of services answers. Its driver lists each
card under an index of its own. -/
structure HostFacts where
  hello : CommandResult
  smi : CommandResult
  probe : CommandResult
  servers : CommandResult
  started : CommandResult
  manager : Bool
  distinct : ((parseGpus smi.stdout).map GpuInfo.index).Nodup
  deriving DecidableEq

/-- Lines, each with a newline at its end. -/
def printed (lines : List Text) : Text := joined '\n' lines

/-- A command that went well. -/
def CommandResult.fine (stdout : Text) : CommandResult := ⟨0, stdout, []⟩

def unitFor (jobId : JobId) : String := "gpu-broker-" ++ jobId

namespace Machine

/-- The live jobs that have a directory under a root, each with its tags, in some order. -/
def listing (machine : Machine) (root : Text) : List Text :=
  (machine.runs.rows.filter fun run => run.state = .active).flatMap fun run =>
    match machine.files.find (jobDir root run.jobId) with
    | none => []
    | some files => ("### " ++ run.jobId).toList :: files.tags

/-- What is said of the status of a unit: the status that the job wrote, and what the manager of services
says if it answers. -/
def statusEntries (machine : Machine) (manager : Bool) (directory : Text × JobId) : List (String × String) :=
  let shown := UnitState.shown ((machine.runs.find directory.2).map Run.state)
  ("exitfile", (machine.exitFile directory.1 directory.2).elim "" Nat.repr) ::
    if manager then
      [("ActiveState", shown.1), ("SubState", shown.2.1), ("Result", shown.2.2), ("ExecMainStatus", "0")]
    else []

/-- What a command is answered with; nothing where the answer is no text. -/
def reply (machine : Machine) (facts : HostFacts) : Command → Option CommandResult
  | .hello => some facts.hello
  | .gpuQuery => some facts.smi
  | .limitProbe => some facts.probe
  | .mpsRunning => some facts.servers
  | .mpsStart => some facts.started
  | .launch run =>
      if !facts.manager then some ⟨1, [], "Failed to connect to bus\n".toList⟩
      else
        match machine.runs.find run.jobId with
        | some _ => some ⟨1, [], ("Failed to start transient service unit: Unit " ++ unitFor run.jobId ++
            ".service was already loaded or has a fragment file.\n").toList⟩
        | none => some (.fine [])
  | .unitStatus directory => some (.fine (printed (entryLines (machine.statusEntries facts.manager directory))))
  | .tailOutput directory after =>
      (utf8Text (tailOutput after ((machine.files.find directory).bind JobFiles.output))).map
        fun text => .fine text.toList
  | .stopUnit _ => some (.fine [])
  | .listLiveJobs root => some (.fine (if facts.manager then printed (machine.listing root) else []))

/-- A machine with a new run of a job, unless there is a unit of its name. -/
def start (machine : Machine) (run : Run) : Machine :=
  match machine.runs.insert run with
  | none => machine
  | some runs => { machine with runs, outcomes := Function.update machine.outcomes run.jobId none }

/-- What a command leaves of a machine. -/
def effect (machine : Machine) (facts : HostFacts) : Command → Machine
  | .launch run => if facts.manager then machine.start run else machine
  | .stopUnit jobId => if facts.manager then machine.unload jobId else machine
  | _ => machine

end Machine

/-! ### The pool -/

inductive HostState where
  | healthy
  | draining
  | unreachable
  deriving DecidableEq

def HostState.acceptsJobs (state : HostState) : Bool := state = .healthy

def HostState.lower : HostState → String
  | healthy => "healthy"
  | draining => "draining"
  | unreachable => "unreachable"

/-- What a check of a host found. A home that was not found is written as Python writes nothing. -/
structure HostHealth where
  hostname : String
  state : HostState
  reason : String
  checkedAt : Time
  gpus : List GpuInfo
  mpsReady : Bool
  limitsEnforced : Bool
  limitsTested : Bool
  home : Text
  deriving DecidableEq

def HostHealth.gpuCount (health : HostHealth) : Nat := health.gpus.length

/-- What a process remembers of the hosts: their health, those drained by hand with the reason, and where it
started MPS. -/
structure Remembered where
  health : String → Option HostHealth
  manualDrain : String → Option String
  mpsStarted : String → Bool

/-- What a process that has just started remembers. -/
def Remembered.new : Remembered := ⟨fun _ => none, fun _ => none, fun _ => false⟩

/-- What becomes of an attempt to run a command: it is answered, or the channel closes without a status; it
fails, or the connection breaks. In all but the first it may have taken effect or not. -/
inductive Attempt where
  | answered
  | closed (took : Bool)
  | failed (text : String) (took : Bool)
  | broken (text : String) (took : Bool)
  deriving DecidableEq

def Attempt.took : Attempt → Bool
  | answered => true
  | closed took | failed _ took | broken _ took => took

/-- What the broker has no say in: the clock, what becomes of each attempt, what the machines have
to say of themselves then, and what has happened on them by then. -/
structure Conditions where
  clock : Nat → Time
  attempts : Nat → Attempt
  facts : Nat → String → HostFacts
  happenings : Nat → String → List (JobId × Happening)

/-- The machines of the pool, with what the process remembers of them. -/
structure Pool where
  machines : String → Machine
  attempts : Nat
  readings : Nat
  memory : Remembered

/-- An attempt to run a command, the first or the second. -/
structure Sent where
  hostname : String
  command : Command
  again : Bool
  deriving DecidableEq

/-- What the process hears of an attempt. -/
inductive Heard where
  | result (result : CommandResult)
  | failed (text : String)
  | broken (text : String)
  deriving DecidableEq

namespace Pool

/-- Machines that no job was on, and a process that has just started. -/
def new : Pool := ⟨fun _ => .new, 0, 0, .new⟩

/-- The pool as another process finds it. -/
def forget (pool : Pool) : Pool := { pool with memory := .new }

/-- The pool when the next command arrives. -/
def arrived (conditions : Conditions) (pool : Pool) : Pool :=
  { pool with
    machines := fun hostname =>
      (conditions.happenings pool.attempts hostname).foldl Machine.happen (pool.machines hostname)
    attempts := pool.attempts + 1 }

/-- What is heard of an attempt. -/
def hears (conditions : Conditions) (pool : Pool) (sent : Sent) : Heard :=
  match conditions.attempts pool.attempts with
  | .answered =>
      match ((pool.arrived conditions).machines sent.hostname).reply
          (conditions.facts pool.attempts sent.hostname) sent.command with
      | some result => .result result
      | none => .broken "'utf-8' codec can't decode the output"
  | .closed _ => .result ⟨-1, [], []⟩
  | .failed text _ => .failed text
  | .broken text _ => .broken text

/-- What an attempt leaves. -/
def tried (conditions : Conditions) (pool : Pool) (sent : Sent) : Pool :=
  let here := pool.arrived conditions
  if (conditions.attempts pool.attempts).took then
    { here with
      machines := Function.update here.machines sent.hostname
        ((here.machines sent.hostname).effect (conditions.facts pool.attempts sent.hostname) sent.command) }
  else here

end Pool

/-- A program of commands. -/
abbrev Ssh (α : Type) := Program Pool Sent String α

/-- One attempt to run a command. -/
def attempt (conditions : Conditions) (sent : Sent) : Ssh Heard :=
  .access (some sent) (fun pool => (pool.hears conditions sent, pool.tried conditions sent)) .done

/-- Run a command; where the connection breaks, it is run once more. -/
def transport (conditions : Conditions) (hostname : String) (command : Command) :
    Ssh (Except String CommandResult) := do
  match ← attempt conditions ⟨hostname, command, false⟩ with
  | .result result => pure (.ok result)
  | .failed text => pure (.error text)
  | .broken _ => do
      match ← attempt conditions ⟨hostname, command, true⟩ with
      | .result result => pure (.ok result)
      | .failed text | .broken text => pure (.error text)

/-- Run a command whose failure is raised. -/
def insist (conditions : Conditions) (hostname : String) (command : Command) : Ssh CommandResult := do
  match ← transport conditions hostname command with
  | .ok result => pure result
  | .error text => .fail text

/-- A reading of the clock. -/
def now (conditions : Conditions) : Ssh Time :=
  Program.quietly fun pool =>
    (conditions.clock pool.readings, { pool with readings := pool.readings + 1 })

/-- Note something. -/
def note (change : Remembered → Remembered) : Ssh Unit :=
  Program.quietly fun pool => ((), { pool with memory := change pool.memory })

/-- What is remembered. -/
def recollect {α : Type} (view : Remembered → α) : Ssh α := Program.read fun pool => view pool.memory

/-! ### The backend -/

/-- The lab pool's settings. -/
structure LocalConfig where
  hosts : List String
  gpuType : String
  maxJobsPerGpu : Nat
  jobRoot : Text
  defaultGpuMemoryMb : Nat
  defaultMemoryMaxMb : Nat
  defaultCpuQuotaPercent : Nat
  healthInterval : Duration
  positive : 1 ≤ maxJobsPerGpu
  distinct : hosts.Nodup

structure LocalBackend where
  name : String
  config : LocalConfig
  stamps : Stamps

def probeMemoryBytes : Int := 67108864

namespace LocalBackend

variable (backend : LocalBackend) (conditions : Conditions)

/-- What is found of a host that is not fit. -/
def unhealthy (hostname : String) (now : Time) (home : Text) (state : HostState) (reason : String)
    (gpus : List GpuInfo) (limitsTested : Bool) : HostHealth :=
  { hostname, state, reason, checkedAt := now, gpus, mpsReady := false, limitsEnforced := false, limitsTested, home }

/-- What is said of a host where limits do not bite. -/
def noLimits (applied : Option Int) (probe : CommandResult) : String :=
  "cgroup limits do not take effect here (asked for " ++ probeMemoryBytes.repr ++
    " bytes, the scope reported " ++ applied.elim "None" Int.repr ++ "): " ++
    probe.detail.getLast?.elim ("exit " ++ probe.exitStatus.repr) String.ofList ++
    ". Without them one job can take the whole machine down, so no new jobs will be placed here. " ++
    "Either give the SSH user passwordless sudo for systemd-run, or set local.use_sudo to false to use the " ++
    "user manager instead -- on a shared research box you will not get sudo, and the user slice usually " ++
    "has memory and cpu delegated anyway"

/-- Look at a host and decide whether it may take work. -/
def checkHost (hostname : String) (now : Time) : Ssh HostHealth := do
  match ← transport conditions hostname .hello with
  | .error text => pure (unhealthy hostname now [] .unreachable text [] false)
  | .ok alive =>
      match if alive.ok then parseHello alive.stdout else none with
      | none =>
          pure (unhealthy hostname now "None".toList .unreachable "ssh connected but the shell failed" [] false)
      | some home => do
          let drained := unhealthy hostname now home .draining
          match ← transport conditions hostname .gpuQuery with
          | .error text => pure (drained ("nvidia-smi did not answer: " ++ text) [] false)
          | .ok smi => do
              if !smi.ok then
                pure (drained ("nvidia-smi failed: " ++ smi.detail.head?.elim "no output" String.ofList ++
                  ". Usually a driver that needs a reboot") [] false)
              else
                let gpus := parseGpus smi.stdout
                match gpus, gpus.filter fun gpu => !gpu.supportsMps with
                | [], _ => pure (drained "nvidia-smi reported no GPUs" [] false)
                | _, first :: others =>
                    let modes := (first :: others).map fun gpu => s!"gpu {gpu.index} is {gpu.computeMode}"
                    pure (drained (", ".intercalate modes ++ ". MPS cannot open a Prohibited device; " ++
                      s!"set it with: sudo nvidia-smi -i {first.index} -c DEFAULT") gpus false)
                | _, [] => do
                    match ← transport conditions hostname .limitProbe with
                    | .error text => pure (drained ("could not test cgroup limits: " ++ text) gpus false)
                    | .ok probe => do
                        let applied := if probe.ok then parseLimitProbe probe.stdout else none
                        if applied ≠ some probeMemoryBytes then pure (drained (noLimits applied probe) gpus true)
                        else do
                          let mps ← insist conditions hostname .mpsRunning
                          pure { hostname, state := .healthy, reason := "", checkedAt := now, gpus,
                                 mpsReady := mps.ok, limitsEnforced := true, limitsTested := true, home }

/-- A host that was drained by hand is draining, whatever a check found. -/
def withManualDrain (health : HostHealth) : Ssh HostHealth := do
  match ← recollect fun memory => memory.manualDrain health.hostname with
  | none => pure health
  | some reason => pure { health with state := .draining, reason := "drained by hand: " ++ reason }

/-- The health of a host: what is remembered, unless that is too old. -/
def healthOf (refresh : Bool) (now : Time) (hostname : String) : Ssh HostHealth := do
  let known ← recollect fun memory => memory.health hostname
  match known.filter fun known => !refresh && now - known.checkedAt < backend.config.healthInterval with
  | some known => withManualDrain known
  | none => do
      let found ← checkHost conditions hostname now
      note fun memory => { memory with health := Function.update memory.health hostname (some found) }
      withManualDrain found

/-- Current health of every host, checked again on an interval. -/
def health (refresh : Bool) : Ssh (List HostHealth) := do
  let now ← Lab.now conditions
  backend.config.hosts.mapM (backend.healthOf conditions refresh now)

/-- Stop placing new jobs on a host. -/
def drain (hostname reason : String) : Ssh Unit := do
  if hostname ∉ backend.config.hosts then .fail s!"no host '{hostname}' in local.hosts"
  else note fun memory =>
    { memory with manualDrain := Function.update memory.manualDrain hostname (some reason) }

def undrain (hostname : String) : Ssh Unit :=
  note fun memory =>
    { memory with
      manualDrain := Function.update memory.manualDrain hostname none
      health := Function.update memory.health hostname none }

def healthyHosts : Ssh (List HostHealth) := do
  let all ← backend.health conditions false
  pure (all.filter fun health => health.state.acceptsJobs)

/-! ### Capacity -/

def supports (gpuType : String) : Bool := gpuType = backend.config.gpuType

/-- The root of job directories on a host, as far as its home is known. -/
def rootFor (hostname : String) : Ssh Text := do
  let known ← recollect fun memory => memory.health hostname
  pure (expand backend.config.jobRoot (known.elim [] HostHealth.home))

/-- The live jobs of a host; none where they cannot be listed. -/
def liveOn (hostname : String) : Ssh (List Fields) := do
  if hostname ∉ backend.config.hosts then pure []
  else do
    let root ← backend.rootFor hostname
    match ← transport conditions hostname (.listLiveJobs root) with
    | .error _ => pure []
    | .ok result => pure (parseLiveJobs result.stdout)

def freeOn (health : HostHealth) : Ssh Nat := do
  let live ← backend.liveOn conditions health.hostname
  pure (health.gpuCount * backend.config.maxJobsPerGpu - live.length)

def freeSlots (gpuType : String) : Ssh Nat := do
  if !backend.supports gpuType then pure 0
  else do
    let healthy ← backend.healthyHosts conditions
    let free ← healthy.mapM (backend.freeOn conditions)
    pure free.sum

/-- Record what a failed command just told, so the next poll is cheap. -/
def markUnreachable (hostname reason : String) : Ssh Unit := do
  let now ← Lab.now conditions
  note fun memory =>
    let known := memory.health hostname
    { memory with
      health := Function.update memory.health hostname (some (unhealthy hostname now
        (known.elim [] HostHealth.home) .unreachable reason (known.elim [] HostHealth.gpus) false)) }

/-! ### Launch -/

/-- The order of hosts for a launch: the emptiest first. -/
def emptier (one two : Nat × HostHealth) : Bool :=
  two.1 < one.1 || one.1 = two.1 && one.2.hostname ≤ two.2.hostname

def pickHost (job : Job) : Ssh HostHealth := do
  if !backend.supports job.gpuType then .fail s!"{backend.name} has no {job.gpuType} capacity"
  else do
    let all ← backend.health conditions false
    if all = [] then .fail "no hosts are configured under local.hosts"
    else do
      let usable := all.filter fun health => health.state.acceptsJobs
      if usable = [] then
        let reasons := all.map fun health => s!"{health.hostname} is {health.state.lower} ({health.reason})"
        .fail ("every local host is unavailable: " ++ "; ".intercalate reasons)
      else do
        let free ← usable.mapM fun health => do
          let free ← backend.freeOn conditions health
          pure (free, health)
        let withRoom := free.filter fun entry => 0 < entry.1
        match (withRoom.mergeSort emptier).head? with
        | none => .fail (s!"every local GPU is at its limit of " ++
            s!"{backend.config.maxJobsPerGpu} concurrent jobs")
        | some best => pure best.2

/-- The card that a job of a listing is on; one without a tag is taken to be on card 0. -/
def cardOf (live : Fields) : Option Int :=
  match live.get "gpu" with
  | none => some 0
  | some text => integer text

/-- The counts with one more job on a card. -/
def bump : List (Int × Nat) → Int → List (Int × Nat)
  | [], index => [(index, 1)]
  | entry :: rest, index =>
      if entry.1 = index then (index, entry.2 + 1) :: rest else entry :: bump rest index

/-- How many jobs are on each card that the host has or a job names; a job with a tag that is no number is
passed over. -/
def loads (gpus : List GpuInfo) (live : List Fields) : List (Int × Nat) :=
  (live.filterMap cardOf).foldl bump (gpus.map fun gpu => (gpu.index, 0))

/-- The least-loaded card, of several the one with the least index. -/
def leastLoaded : List (Int × Nat) → Option (Int × Nat)
  | [] => none
  | entry :: rest =>
      match leastLoaded rest with
      | none => some entry
      | some best =>
          if entry.2 < best.2 ∨ entry.2 = best.2 ∧ entry.1 ≤ best.1 then some entry else some best

def pickDevice (health : HostHealth) : Ssh Int := do
  let live ← backend.liveOn conditions health.hostname
  pure (((leastLoaded (loads health.gpus live)).map Prod.fst).getD 0)

/-- Bring the MPS control daemon up. -/
def startMps (hostname : String) : Ssh Unit := do
  let result ← insist conditions hostname .mpsStart
  if result.ok then pure ()
  else .fail (hostname ++ ": could not start the MPS daemon: " ++
    result.detail.head?.elim "no output" String.ofList)

def ensureMps (health : HostHealth) : Ssh Unit := do
  let started ← recollect fun memory => memory.mpsStarted health.hostname
  if health.mpsReady || started then pure ()
  else do
    startMps conditions health.hostname
    note fun memory => { memory with mpsStarted := Function.update memory.mpsStarted health.hostname true }

def handleOf (hostname : String) (jobId : JobId) : String := hostname ++ "/" ++ jobId

/-- The host and the job of a handle. -/
def split (handle : String) : String × JobId :=
  let halves := partition '/' handle.toList
  (.ofList halves.1, .ofList halves.2)

def launch (job : Job) : Ssh Allocation := do
  let health ← backend.pickHost conditions job
  let device ← backend.pickDevice conditions health
  ensureMps conditions health
  let now ← Lab.now conditions
  let root := expand backend.config.jobRoot health.home
  let tags := metaLines job.jobId job.userId (backend.stamps.toIso now) device
  let result ← insist conditions health.hostname (.launch ⟨job.jobId, root, tags, device, .activating⟩)
  if !result.ok then
    .fail (health.hostname ++ ": could not start the job: " ++
      result.detail.getLast?.elim ("exit " ++ result.exitStatus.repr) String.ofList)
  else pure { handle := handleOf health.hostname job.jobId, gpuType := backend.config.gpuType }

def validateLaunch (job : Job) : Ssh String := do
  let health ← backend.pickHost conditions job
  pure (s!"would run on {health.hostname} under MPS with " ++
    s!"{backend.config.defaultGpuMemoryMb}MB of GPU memory, " ++
    s!"{backend.config.defaultMemoryMaxMb}MB of host RAM and " ++
    s!"{backend.config.defaultCpuQuotaPercent}% CPU")

/-! ### Polls, output and termination -/

/-- What the broker makes of the status of a unit. The status that the job wrote is the authority. -/
def observed (status : UnitStatus) : Observation :=
  match status.exitCode with
  | some 0 => { status := .completed, exitCode := some 0, detail := some "exited cleanly" }
  | some code => { status := .failed, exitCode := some code, detail := some s!"exited with status {code}" }
  | none =>
      if status.activeState ∈ ["activating", "active", "reloading"] then
        { status := .running, exitCode := none
          detail := some ((truthy (some status.subState)).getD "running") }
      else if status.activeState ∈ ["", "inactive", "failed", "deactivating"] then
        if status.wasOomKilled then
          { status := .failed, exitCode := none
            detail := some (s!"killed for exceeding its {backend.config.defaultMemoryMaxMb}MB " ++
              "host memory limit") }
        else
          { status := .failed, exitCode := none
            detail := some ("the unit is " ++ (truthy (some status.activeState)).getD "gone" ++ " (" ++
              (truthy (some status.result)).getD "no result" ++ ") and wrote no exit status, " ++
              "so it was killed rather than finishing") }
      else { status := .running, exitCode := none, detail := some status.activeState }

def pending (reason : String) : Observation :=
  { status := .pending, exitCode := none, detail := some ("host not answering: " ++ reason) }

def poll (handle : String) : Ssh Observation := do
  let (hostname, jobId) := split handle
  if hostname ∉ backend.config.hosts then
    pure { status := .gone, exitCode := none, detail := some s!"host {hostname} is not configured" }
  else do
    let known ← recollect fun memory => memory.health hostname
    match known.filter fun known => known.state = .unreachable with
    | some known => pure (pending known.reason)
    | none => do
        let root ← backend.rootFor hostname
        match ← transport conditions hostname (.unitStatus (jobDir root jobId)) with
        | .error text => do
            markUnreachable conditions hostname text
            pure (pending text)
        | .ok result => pure (backend.observed (parseUnitStatus result.stdout))

def fetchLogs (handle : String) (after : Nat) : Ssh (List Line) := do
  let (hostname, jobId) := split handle
  if hostname ∉ backend.config.hosts then pure []
  else do
    let root ← backend.rootFor hostname
    match ← transport conditions hostname (.tailOutput (jobDir root jobId) after) with
    | .error _ => pure []
    | .ok result => pure ((pieces result.stdout).map fun line => ("stdout", String.ofList line))

/-- Best effort: a host that cannot be reached is left to the health check. -/
def terminate (handle : String) (_reason : String) : Ssh Unit := do
  let (hostname, jobId) := split handle
  if hostname ∉ backend.config.hosts then pure ()
  else do
    let _ ← transport conditions hostname (.stopUnit jobId)
    pure ()

/-- What the backend makes of a live job. -/
def resourceOf (hostname : String) (live : Fields) : Resource :=
  let field := fun key => String.ofList ((live.get key).getD [])
  let jobId := field "job-id"
  { handle := handleOf hostname jobId
    gpuType := backend.config.gpuType
    status := .running
    tags := if jobId = "" then []
      else [(tagJobId, jobId), (tagUser, field "user"), (tagLaunchedAt, field "launched-at")] }

def listResources : Ssh (List Resource) := do
  let all ← backend.health conditions false
  let found ← (all.filter fun health => health.state ≠ .unreachable).mapM fun health => do
    let live ← backend.liveOn conditions health.hostname
    pure (live.map (backend.resourceOf health.hostname))
  pure found.flatten

end LocalBackend

deriving instance DecidableEq for Allocation

deriving instance DecidableEq for Observation

/-! ### Calls -/

/-- What the broker does with the backend, and a restart of the broker. -/
inductive Call where
  | launch (job : Job)
  | validateLaunch (job : Job)
  | freeSlots (gpuType : String)
  | poll (handle : String)
  | fetchLogs (handle : String) (after : Nat)
  | terminate (handle reason : String)
  | health (refresh : Bool)
  | drain (hostname reason : String)
  | undrain (hostname : String)
  | listResources
  | restart

/-- Is a call a launch? -/
def Call.launches : Call → Bool
  | launch _ => true
  | _ => false

/-- A call as a program. -/
def Call.program (backend : LocalBackend) (conditions : Conditions) : Call → Ssh Unit
  | launch job => discard (backend.launch conditions job)
  | validateLaunch job => discard (backend.validateLaunch conditions job)
  | freeSlots gpuType => discard (backend.freeSlots conditions gpuType)
  | poll handle => discard (backend.poll conditions handle)
  | fetchLogs handle after => discard (backend.fetchLogs conditions handle after)
  | terminate handle reason => backend.terminate conditions handle reason
  | health refresh => discard (backend.health conditions refresh)
  | drain hostname reason => backend.drain hostname reason
  | undrain hostname => LocalBackend.undrain hostname
  | listResources => discard (backend.listResources conditions)
  | restart => Program.quietly fun pool => ((), pool.forget)

/-! ### What a command comes to -/

/-- What a command comes to, after a second attempt if it takes one, and what it leaves. -/
def Pool.answer (conditions : Conditions) (pool : Pool) (hostname : String) (command : Command) :
    Except String CommandResult × Pool :=
  let first : Sent := ⟨hostname, command, false⟩
  let after := pool.tried conditions first
  match pool.hears conditions first with
  | .result result => (.ok result, after)
  | .failed text => (.error text, after)
  | .broken _ =>
      let second : Sent := ⟨hostname, command, true⟩
      match after.hears conditions second with
      | .result result => (.ok result, after.tried conditions second)
      | .failed text | .broken text => (.error text, after.tried conditions second)

theorem whole_attempt {α : Type} (conditions : Conditions) (sent : Sent) (rest : Heard → Ssh α) (pool : Pool) :
    (attempt conditions sent >>= rest).whole pool =
      (rest (pool.hears conditions sent)).whole (pool.tried conditions sent) := rfl

theorem whole_transport (conditions : Conditions) (hostname : String) (command : Command) (pool : Pool) :
    (transport conditions hostname command).whole pool =
      (.ok (pool.answer conditions hostname command).1, (pool.answer conditions hostname command).2) := by
  unfold transport Pool.answer
  simp only [whole_attempt]
  cases pool.hears conditions ⟨hostname, command, false⟩ with
  | result | failed => rfl
  | broken text =>
      simp only [whole_attempt]
      cases (pool.tried conditions ⟨hostname, command, false⟩).hears conditions ⟨hostname, command, true⟩ with
      | result | failed | broken => rfl

/-- A program goes on from what a command comes to. -/
theorem whole_transport_bind {α : Type} (conditions : Conditions) (hostname : String) (command : Command)
    (rest : Except String CommandResult → Ssh α) (pool : Pool) :
    (transport conditions hostname command >>= rest).whole pool =
      (rest (pool.answer conditions hostname command).1).whole (pool.answer conditions hostname command).2 := by
  rw [Program.whole_bind, whole_transport]

theorem whole_recall {α β : Type} (view : Remembered → α) (rest : α → Ssh β) (pool : Pool) :
    (recollect view >>= rest).whole pool = (rest (view pool.memory)).whole pool := rfl

/-- A command comes to the same whatever the process remembers. -/
theorem answer_remembering (conditions : Conditions) (pool : Pool) (memory : Remembered) (hostname : String)
    (command : Command) :
    ({ pool with memory }.answer conditions hostname command).1 = (pool.answer conditions hostname command).1 := by
  have hears : ∀ (pool : Pool) sent, { pool with memory }.hears conditions sent = pool.hears conditions sent :=
    fun _ _ => rfl
  have tried : ∀ (pool : Pool) sent,
      { pool with memory }.tried conditions sent = { pool.tried conditions sent with memory } := by
    intro pool sent
    unfold Pool.tried
    simp only
    split
    · rfl
    · rfl
  unfold Pool.answer
  simp only [hears, tried]
  cases pool.hears conditions ⟨hostname, command, false⟩ with
  | result | failed => rfl
  | broken text =>
      simp only
      cases (pool.tried conditions ⟨hostname, command, false⟩).hears conditions ⟨hostname, command, true⟩ with
      | result | failed | broken => rfl

/-- A result is what was heard of the last attempt. -/
theorem answer_heard {conditions : Conditions} {pool : Pool} {hostname : String} {command : Command}
    {result : CommandResult} (answered : (pool.answer conditions hostname command).1 = .ok result) :
    ∃ earlier again, (earlier = pool ∨ earlier = pool.tried conditions ⟨hostname, command, false⟩) ∧
      earlier.hears conditions ⟨hostname, command, again⟩ = .result result ∧
      (pool.answer conditions hostname command).2 = earlier.tried conditions ⟨hostname, command, again⟩ := by
  unfold Pool.answer at answered ⊢
  simp only at answered ⊢
  cases first : pool.hears conditions ⟨hostname, command, false⟩ with
  | result heard =>
      simp only [first] at answered
      cases answered
      exact ⟨pool, false, Or.inl rfl, first, rfl⟩
  | failed text =>
      simp only [first] at answered
      cases answered
  | broken text =>
      simp only [first] at answered
      cases second : (pool.tried conditions ⟨hostname, command, false⟩).hears conditions ⟨hostname, command, true⟩ with
      | result heard =>
          simp only [second] at answered
          cases answered
          exact ⟨_, true, Or.inr rfl, second, rfl⟩
      | failed text | broken text =>
          simp only [second] at answered
          cases answered

/-- A command that is answered at the first attempt. -/
theorem answer_answered {conditions : Conditions} {pool : Pool} {hostname : String} {command : Command}
    {result : CommandResult} (answered : conditions.attempts pool.attempts = .answered)
    (reply : ((pool.arrived conditions).machines hostname).reply (conditions.facts pool.attempts hostname) command =
      some result) : (pool.answer conditions hostname command).1 = .ok result := by
  have heard : pool.hears conditions ⟨hostname, command, false⟩ = .result result := by
    unfold Pool.hears
    rw [answered]
    simp only [reply]
  unfold Pool.answer
  simp only [heard]

/-! ### What is printed, read back -/

/-- A text without whitespace. -/
def Tight (text : Text) : Prop := ∀ letter ∈ text, letter ∉ whitespace

instance (text : Text) : Decidable (Tight text) :=
  decidableLetters text fun letter => letter ∉ whitespace

theorem Tight.oneLine {text : Text} (tight : Tight text) : OneLine text := by
  have spaces : ∀ letter ∈ lineBreaks, letter ∈ whitespace := by decide
  exact fun letter member broken => tight letter member (spaces letter broken)

theorem lstrip_tight {text : Text} (tight : Tight text) : lstrip text = text := by
  unfold lstrip
  cases text with
  | nil => rfl
  | cons letter rest => exact List.dropWhile_cons_of_neg (by simpa using tight letter List.mem_cons_self)

theorem strip_tight {text : Text} (tight : Tight text) : strip text = text := by
  unfold strip
  rw [lstrip_tight tight, lstrip_tight fun letter member => tight letter (List.mem_reverse.mp member),
    List.reverse_reverse]

/-- A text that neither begins nor ends with whitespace, before a newline. -/
theorem strip_newline {front back : Text} (first last : Char) (begins : first ∉ whitespace)
    (ends : last ∉ whitespace) (same : first :: back = front ++ [last]) :
    strip (first :: back ++ ['\n']) = first :: back := by
  unfold strip lstrip
  rw [List.cons_append, List.dropWhile_cons_of_neg (by simpa using begins), ← List.cons_append, same,
    List.reverse_append, List.reverse_append, List.reverse_singleton, List.reverse_singleton,
    List.singleton_append, List.singleton_append, List.dropWhile_cons_of_pos (by decide),
    List.dropWhile_cons_of_neg (by simpa using ends), List.reverse_cons, List.reverse_reverse]

/-- Lines that are not blank are read as they were printed. -/
theorem strippedLines_printed {lines : List Text} {last : Text} (tight : ∀ line ∈ lines ++ [last], Tight line)
    (written : ∀ line ∈ lines ++ [last], line ≠ []) :
    strippedLines (printed (lines ++ [last])) = lines ++ [last] := by
  have lastTight := tight last (by simp)
  have lastWritten := written last (by simp)
  have front : printed (lines ++ [last]) = (printed lines ++ last) ++ ['\n'] := by
    unfold printed
    rw [joined_append, joined_cons]
    simp [joined]
  obtain ⟨first, back, begins, plain⟩ : ∃ first back, printed lines ++ last = first :: back ∧
      first ∉ whitespace := by
    cases lines with
    | nil =>
        obtain ⟨first, back, rfl⟩ := List.exists_cons_of_ne_nil lastWritten
        exact ⟨first, back, rfl, lastTight first List.mem_cons_self⟩
    | cons line lines =>
        obtain ⟨first, back, rfl⟩ := List.exists_cons_of_ne_nil (written line List.mem_cons_self)
        exact ⟨first, back ++ '\n' :: printed lines ++ last, by simp [printed, joined_cons],
          tight _ List.mem_cons_self first List.mem_cons_self⟩
  have ended : printed lines ++ last = (printed lines ++ last.dropLast) ++ [last.getLast lastWritten] := by
    rw [List.append_assoc, List.dropLast_append_getLast lastWritten]
  unfold strippedLines
  rw [front, begins, strip_newline first (last.getLast lastWritten) plain
    (lastTight _ (List.getLast_mem lastWritten)) (begins ▸ ended), ← begins, printed,
    pieces_joined fun line member => (tight line (List.mem_append_left _ member)).oneLine,
    pieces_whole lastTight.oneLine lastWritten]

theorem partition_append {mark : Char} {front : Text} (plain : mark ∉ front) (back : Text) :
    partition mark (front ++ mark :: back) = (front, back) := by
  have kept : ∀ letter ∈ front, decide (letter ≠ mark) = true :=
    fun letter member => decide_eq_true fun same => plain (same ▸ member)
  unfold partition
  rw [List.takeWhile_append_of_pos kept, List.dropWhile_append_of_pos kept,
    List.takeWhile_cons_of_neg (by simp), List.dropWhile_cons_of_neg (by simp), List.append_nil,
    List.drop_one, List.tail_cons]

/-- A line that gives a key its value is read as that. -/
theorem read_entry {key value : String} (fields : Fields) (bare : '=' ∉ key.toList) (tight : Tight key.toList)
    (snug : Tight value.toList) : fields.read (entry key value) = (key.toList, value.toList) :: fields := by
  have halves : partition '=' (entry key value) = (key.toList, value.toList) := partition_append bare _
  unfold Fields.read
  rw [if_pos (by unfold entry; simp), halves]
  show (strip key.toList, strip value.toList) :: fields = _
  rw [strip_tight tight, strip_tight snug]

theorem tight_entry {key value : String} (tight : Tight key.toList) (snug : Tight value.toList) :
    Tight (entry key value) := by
  intro letter member
  rcases List.mem_append.mp member with inside | rest
  · exact tight letter inside
  · rcases List.mem_cons.mp rest with rfl | inside
    · decide
    · exact snug letter inside

theorem natural_toDigits (number : Nat) : natural (Nat.toDigits 10 number) = some number := by
  have digits : (Nat.toDigits 10 number).all Char.isDigit = true :=
    List.all_eq_true.mpr fun letter member => Nat.isDigit_of_mem_toDigits (by decide) (by decide) member
  have some : Nat.toDigits 10 number ≠ [] := by
    intro none
    have positive : 0 < (Nat.toDigits 10 number).length := Nat.length_toDigits_pos
    rw [none] at positive
    exact absurd positive (Nat.lt_irrefl 0)
  unfold natural
  rw [if_pos ⟨some, digits⟩, Nat.ofDigitChars_ten_toDigits]

theorem tight_of_digits {text : Text} (digits : ∀ letter ∈ text, letter.isDigit = true) : Tight text := by
  have spaces : ∀ letter ∈ whitespace, letter.isDigit = false := by decide
  intro letter member space
  exact absurd ((spaces letter space).symm.trans (digits letter member)) (by decide)

theorem digits_repr (number : Nat) : ∀ letter ∈ number.repr.toList, letter.isDigit = true := by
  rw [Nat.repr_eq_ofList_toDigits, String.toList_ofList]
  exact fun letter member => Nat.isDigit_of_mem_toDigits (by decide) (by decide) member

/-- A number is read as it is written. -/
theorem integer_repr (number : Nat) : integer number.repr.toList = some (number : Int) := by
  have digits := digits_repr number
  have read : natural number.repr.toList = some number := by
    rw [Nat.repr_eq_ofList_toDigits, String.toList_ofList, natural_toDigits]
  unfold integer
  rw [strip_tight (tight_of_digits digits)]
  split
  · next rest minus => exact absurd (digits '-' (by rw [minus]; exact List.mem_cons_self)) (by decide)
  · next rest plus => exact absurd (digits '+' (by rw [plus]; exact List.mem_cons_self)) (by decide)
  · rw [read]
    rfl

theorem integer_repr_int (number : Int) : integer number.repr.toList = some number := by
  cases number with
  | ofNat number => exact integer_repr number
  | negSucc number =>
      have text : (Int.negSucc number).repr.toList = '-' :: (number + 1).repr.toList := by
        show ("-" ++ (number + 1).repr).toList = _
        rw [String.toList_append]
        rfl
      have tight : Tight ('-' :: (number + 1).repr.toList) := by
        intro letter member
        rcases List.mem_cons.mp member with rfl | inside
        · decide
        · exact tight_of_digits (digits_repr _) letter inside
      unfold integer
      rw [text, strip_tight tight, Nat.repr_eq_ofList_toDigits, String.toList_ofList]
      simp only [natural_toDigits]
      rfl

/-- Entries that are read as they are written. -/
def Readable (entries : List (String × String)) : Prop :=
  ∀ each ∈ entries, '=' ∉ each.1.toList ∧ Tight each.1.toList ∧ Tight each.2.toList

/-- Lines that give keys their values are read one by one, the last one first. -/
theorem read_entries {entries : List (String × String)} (readable : Readable entries) (fields : Fields) :
    (entryLines entries).foldl Fields.read fields =
      (entries.map fun each => (each.1.toList, each.2.toList)).reverse ++ fields := by
  induction entries generalizing fields with
  | nil => rfl
  | cons each entries inductionHypothesis =>
      obtain ⟨bare, tight, snug⟩ := readable each List.mem_cons_self
      unfold entryLines at inductionHypothesis ⊢
      rw [List.map_cons, List.foldl_cons, read_entry fields bare tight snug,
        inductionHypothesis fun other member => readable other (List.mem_cons_of_mem _ member)]
      simp

/-- What is read of lines that give keys their values. -/
theorem fields_printed {entries : List (String × String)} (readable : Readable entries) (some : entries ≠ []) :
    (strippedLines (printed (entryLines entries))).foldl Fields.read [] =
      (entries.map fun each => (each.1.toList, each.2.toList)).reverse := by
  have tight : ∀ line ∈ entryLines entries, Tight line := by
    intro line member
    obtain ⟨each, inside, rfl⟩ := List.mem_map.mp member
    exact tight_entry (readable each inside).2.1 (readable each inside).2.2
  have written : ∀ line ∈ entryLines entries, line ≠ [] := by
    intro line member
    obtain ⟨each, inside, rfl⟩ := List.mem_map.mp member
    unfold entry
    simp
  have lines : strippedLines (printed (entryLines entries)) = entryLines entries := by
    have ended := List.dropLast_append_getLast (mt List.map_eq_nil_iff.mp some : entryLines entries ≠ [])
    rw [← ended] at tight written ⊢
    exact strippedLines_printed tight written
  rw [lines, read_entries readable, List.append_nil]

theorem readable_statusEntries (machine : Machine) (manager : Bool) (directory : Text × JobId) :
    Readable (machine.statusEntries manager directory) := by
  have keys : ∀ key ∈ ["exitfile", "ActiveState", "SubState", "Result", "ExecMainStatus"],
      '=' ∉ key.toList ∧ Tight key.toList := by decide +kernel
  have words : ∀ state : Option UnitState, Tight (UnitState.shown state).1.toList ∧
      Tight (UnitState.shown state).2.1.toList ∧ Tight (UnitState.shown state).2.2.toList := by
    rintro (_ | ⟨⟩ | ⟨⟩ | ⟨⟩ | ⟨⟨⟩⟩) <;> decide +kernel
  have status : Tight (((machine.exitFile directory.1 directory.2).elim "" Nat.repr).toList) := by
    cases machine.exitFile directory.1 directory.2 with
    | none => decide
    | some status => exact tight_of_digits (digits_repr status)
  obtain ⟨active, sub, result⟩ := words ((machine.runs.find directory.2).map Run.state)
  intro each member
  unfold Machine.statusEntries at member
  rcases List.mem_cons.mp member with rfl | rest
  · exact ⟨(keys _ (by simp)).1, (keys _ (by simp)).2, status⟩
  · cases manager with
    | false => exact absurd rest List.not_mem_nil
    | true =>
        simp only [if_true, List.mem_cons, List.not_mem_nil, or_false] at rest
        rcases rest with rfl | rfl | rfl | rfl
        · exact ⟨(keys _ (by simp)).1, (keys _ (by simp)).2, active⟩
        · exact ⟨(keys _ (by simp)).1, (keys _ (by simp)).2, sub⟩
        · exact ⟨(keys _ (by simp)).1, (keys _ (by simp)).2, result⟩
        · exact ⟨(keys _ (by simp)).1, (keys _ (by simp)).2, by decide⟩

/-- A field is the one that was set last. -/
theorem get_cons (fields : Fields) (key other : String) (value : Text) :
    Fields.get ((other.toList, value) :: fields) key = if key = other then some value else fields.get key := by
  unfold Fields.get
  rw [List.lookup_cons]
  by_cases same : key = other
  · rw [if_pos same, same, beq_self_eq_true]
  · rw [if_neg same, beq_eq_false_iff_ne.mpr fun equal => same (String.toList_inj.mp equal)]

/-- The status of a unit is read as it is. -/
theorem parse_statusEntries (machine : Machine) (manager : Bool) (directory : Text × JobId) :
    let shown := if manager then UnitState.shown ((machine.runs.find directory.2).map Run.state) else ("", "", "")
    parseUnitStatus (printed (entryLines (machine.statusEntries manager directory))) =
      { exitCode := (machine.exitFile directory.1 directory.2).map Int.ofNat
        activeState := shown.1, subState := shown.2.1, result := shown.2.2 } := by
  have exit : integer ((machine.exitFile directory.1 directory.2).elim "" Nat.repr).toList =
      (machine.exitFile directory.1 directory.2).map Int.ofNat := by
    cases machine.exitFile directory.1 directory.2 with
    | none => rfl
    | some status => exact integer_repr status
  unfold parseUnitStatus
  rw [fields_printed (readable_statusEntries machine manager directory) (List.cons_ne_nil _ _), ← exit]
  have nothing : ∀ key, Fields.get [] key = none := fun _ => rfl
  unfold Machine.statusEntries
  cases manager with
  | false =>
      simp only [Bool.false_eq_true, if_false, List.map_cons, List.map_nil, List.reverse_singleton, get_cons,
        nothing, String.reduceEq, if_true]
      rfl
  | true =>
      simp only [if_true, List.map_cons, List.map_nil, List.reverse_cons, List.reverse_nil, List.nil_append,
        List.cons_append, get_cons, String.reduceEq, if_false]
      simp only [Option.bind_some, Option.getD_some, String.ofList_toList]

end Lab

end GpuBroker.Broker
