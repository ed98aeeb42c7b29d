/-
This file is the EC2 backend: the account, what one process remembers of it, and
the methods of the backend as programs of requests.

A request may take effect and be answered, fail without an effect, or take
effect and lose its answer. Between requests the machines of the account boot,
register their agents and go away by themselves; what a machine is tagged with
only requests change. What SSM says of a command, and what spot prices were, is
whatever the weather makes it.
-/
import GpuBroker.Library.Program
import GpuBroker.Broker.Operations

namespace GpuBroker.Broker

open Library

/-! ### The account -/

inductive InstanceState where
  | pending
  | running
  | shuttingDown
  | terminated
  | stopping
  | stopped
  deriving DecidableEq

/-- The states in which EC2 is still charging for an instance. -/
def InstanceState.live : InstanceState → Bool
  | pending | running | stopping | stopped => true
  | shuttingDown | terminated => false

def InstanceState.text : InstanceState → String
  | pending => "pending"
  | running => "running"
  | shuttingDown => "shutting-down"
  | terminated => "terminated"
  | stopping => "stopping"
  | stopped => "stopped"

/-- A machine, with whether its SSM agent has registered. -/
structure Instance where
  instanceId : String
  instanceType : String
  state : InstanceState
  stateReason : String
  spot : Bool
  online : Bool
  tags : List (String × String)
  deriving DecidableEq

def tagJobId : String := "broker-job-id"

def tagUser : String := "broker-user"

def tagLaunchedAt : String := "broker-launched-at"

def tagCommandId : String := "broker-command-id"

def tagSamplerId : String := "broker-sampler-id"

/-- The tags every backend stamps on what it creates. -/
def tagsFor (job : Job) (launchedAtIso : String) : List (String × String) :=
  [(tagJobId, job.jobId), (tagUser, job.userId), (tagLaunchedAt, launchedAtIso)]

/-- Tags with one set. -/
def withTag (tags : List (String × String)) (tag : String × String) : List (String × String) :=
  tag :: tags.filter fun other => other.1 ≠ tag.1

theorem Ec2.lookup_withTag (tags : List (String × String)) (tag : String × String) (key : String) :
    (withTag tags tag).lookup key = if key = tag.1 then some tag.2 else tags.lookup key := by
  unfold withTag
  split
  · next same => rw [same, List.lookup_cons_self]
  · next differs =>
    rw [List.lookup_cons, beq_false_of_ne differs]
    simp only
    induction tags with
    | nil => rfl
    | cons other tags inductionHypothesis =>
        rw [List.filter_cons]
        split
        · rw [List.lookup_cons, List.lookup_cons]
          split
          · rfl
          · exact inductionHypothesis
        · next dropped =>
          rw [List.lookup_cons, beq_false_of_ne]
          · exact inductionHypothesis
          · intro same
            have kept : other.1 = tag.1 := by simpa using dropped
            exact differs (same.trans kept)

def Instance.commandId (machine : Instance) : Option String := machine.tags.lookup tagCommandId

/-! ### Requests -/

/-- What becomes of a request. -/
inductive Fate where
  | answered
  | refused (code : String)
  | unanswered
  deriving DecidableEq

/-- What is asked of AWS. -/
inductive Request where
  | describeInstances
  | describeInstance (handle : String)
  | describeSpotPriceHistory
  | runInstances
  | sendCommand (handle : String)
  | sendSampler (handle : String)
  | createTags (handle : String)
  | describeInstanceInformation (handle : String)
  | getCommandInvocation (handle : String)
  | getLogEvents (handle : String)
  | cancelCommand (handle : String)
  | terminateInstances (handle : String)
  deriving DecidableEq

/-- The status of a command, as SSM reports it. -/
structure Invocation where
  status : String
  responseCode : Option Int
  statusDetails : String
  standardError : String
  deriving DecidableEq

/-- Does a code say that AWS does not know the instance? -/
def unknownInstance (code : String) : Bool :=
  code = "InvalidInstanceID.NotFound" || code = "InvalidInstanceID.Malformed"

/-- What the broker has no say in: the clock, what becomes of its requests, how machines move on by the
time of a request, what SSM says of a command, what its log holds and what spot prices were. A request
that fails is not answered that there is no such instance. -/
structure Weather where
  clock : Nat → Time
  fate : Nat → Fate
  moves : Nat → Instance → Option (InstanceState × String × Bool)
  invocation : Nat → String → String → Except String Invocation
  logEvents : Nat → String → Option String → Except String (List String × Option String)
  spotPrices : Nat → List (String × Decimal)
  honest : ∀ request code, fate request = .refused code → unknownInstance code = false

/-- What a process remembers for one of its backends: the listing in the cache and when it was made, the
failures of spot requests, and the output read so far with where each stream was left. -/
structure Memory where
  cache : Option (List Instance × Time)
  failures : Nat
  coolingUntil : Option Time
  lines : List (String × List Line)
  tokens : List (String × String)

def Memory.new : Memory := ⟨none, 0, none, [], []⟩

/-- The account, and what one process remembers of it: the instances, which backend launched each that
was ever launched, which were sent the command of a job, how many commands were accepted, and what is
remembered for the backend of each name. -/
structure Ec2 where
  instances : List Instance
  launched : List String
  sent : List String
  commands : Nat
  requests : Nat
  readings : Nat
  memory : String → Memory

namespace Ec2

/-- An account without machines, and a process that has just started. -/
def new : Ec2 := ⟨[], [], [], 0, 0, 0, fun _ => .new⟩

/-- The account as another process finds it. -/
def forget (account : Ec2) : Ec2 := { account with memory := fun _ => .new }

/-- The account with what is remembered for a backend changed. -/
def remember (name : String) (change : Memory → Memory) (account : Ec2) : Ec2 :=
  { account with memory := Function.update account.memory name (change (account.memory name)) }

/-- The account when a request arrives: machines have moved on, and some are no longer shown. -/
def arrived (weather : Weather) (account : Ec2) : Ec2 :=
  { account with
    requests := account.requests + 1
    instances := account.instances.filterMap fun machine =>
      (weather.moves account.requests machine).map fun (state, stateReason, online) =>
        { machine with state, stateReason, online } }

/-- A program of requests to AWS. -/
abbrev Aws (α : Type) := Program Ec2 Request String α

/-- A request: what it changes, what it answers, and what the process notes of an answer it receives. -/
def request {α : Type} (weather : Weather) (label : Request) (effect : Ec2 → Ec2)
    (reply : Ec2 → Except String α) (note : Except String α → Ec2 → Ec2) : Aws (Except String α) :=
  .access (some label)
    (fun account =>
      let here := account.arrived weather
      match weather.fate account.requests with
      | .answered => (reply here, note (reply here) (effect here))
      | .refused code => (.error code, here)
      | .unanswered => (.error "RequestTimeout", effect here))
    .done

/-- A request of which nothing is noted. -/
def ask {α : Type} (weather : Weather) (label : Request) (effect : Ec2 → Ec2)
    (reply : Ec2 → Except String α) : Aws (Except String α) :=
  request weather label effect reply fun _ => id

/-- A reading of the clock. -/
def now (weather : Weather) : Aws Time :=
  Program.quietly fun account =>
    (weather.clock account.readings, { account with readings := account.readings + 1 })

/-- Note something for a backend. -/
def note (name : String) (change : Memory → Memory) : Aws Unit :=
  Program.quietly fun account => ((), account.remember name change)

/-- What is remembered for a backend. -/
def recollect {α : Type} (name : String) (view : Memory → α) : Aws α :=
  Program.read fun account => view (account.memory name)

end Ec2

/-! ### The backend -/

/-- What the broker needs from the club's AWS account. -/
structure AwsConfig where
  ami : Option String
  instanceProfile : Option String
  instanceTypes : List (String × String)
  spotInstanceTypes : List (String × List String)
  maxInstances : List (String × Int)
  agentTimeout : Duration

/-- A backend on an account: of on-demand machines, or of spot ones. -/
structure Ec2Backend where
  name : String
  tier : Option String
  spot : Bool
  aws : AwsConfig
  stamps : Stamps
  cacheTime : Duration
  maxLaunchFailures : Nat
  cooldown : Duration
  parseSample : String → Option Reading

namespace AwsConfig

/-- The settings that are missing for a launch. -/
def missing (aws : AwsConfig) : List String :=
  [("aws.ami", aws.ami), ("aws.instance_profile", aws.instanceProfile)].filterMap fun setting =>
    if (truthy setting.2).isSome then none else some setting.1

def instanceTypeFor (aws : AwsConfig) (gpuType : String) : Option String := aws.instanceTypes.lookup gpuType

end AwsConfig

namespace Ec2Backend

open Ec2

variable (backend : Ec2Backend) (weather : Weather)

def supports (gpuType : String) : Bool :=
  if backend.spot then !((backend.aws.spotInstanceTypes.lookup gpuType).getD []).isEmpty
  else (backend.aws.instanceTypeFor gpuType).isSome

/-- The live instances the broker has tagged. -/
def tagged (account : Ec2) : List Instance :=
  account.instances.filter fun machine =>
    machine.state.live && (machine.tags.lookup tagJobId).isSome

/-- Keep a listing in the cache, if there is one. -/
def caching (now : Time) (answer : Except String (List Instance)) : Ec2 → Ec2 :=
  match answer with
  | .ok found => remember backend.name fun memory => { memory with cache := some (found, now) }
  | .error _ => id

/-- Every live instance the broker has tagged, from the cache when that is young enough. -/
def instances : Aws (List Instance) := do
  let now ← Ec2.now weather
  let remembered ← recollect backend.name Memory.cache
  match remembered.filter fun cache => now - cache.2 < backend.cacheTime with
  | some cache => pure cache.1
  | none => do
      match ← request weather .describeInstances id (fun account => .ok (tagged account))
        (backend.caching now) with
      | .error code => .fail s!"could not list instances: {code}"
      | .ok found => pure found

/-- Look one instance up, live or not. -/
def describeOne (handle : String) : Aws (Option Instance) := do
  match ← ask weather (.describeInstance handle) id
    (fun account =>
      match account.instances.find? fun machine => machine.instanceId = handle with
      | some machine => .ok machine
      | none => .error "InvalidInstanceID.NotFound") with
  | .ok found => pure (some found)
  | .error code => if unknownInstance code then pure none else .fail s!"could not describe {handle}: {code}"

/-- One instance, including those that are no longer live. -/
def instanceOf (handle : String) : Aws (Option Instance) := do
  let found ← backend.instances weather
  match found.find? fun machine => machine.instanceId = handle with
  | some machine => pure (some machine)
  | none => describeOne weather handle

/-- The command an instance is tagged with. -/
def commandId (handle : String) : Aws (Option String) := do
  let found ← backend.instanceOf weather handle
  pure (truthy (found.bind Instance.commandId))

def invalidate : Aws Unit := note backend.name fun memory => { memory with cache := none }

/-! ### Capacity and launch -/

/-- The limit of a kind less the machines of its instance type. -/
def countedSlots (gpuType : String) : Aws Int :=
  match backend.aws.instanceTypeFor gpuType with
  | none => .fail s!"no EC2 instance type mapped for gpu type {gpuType}"
  | some wanted => do
      let found ← backend.instances weather
      let inUse := found.countP fun machine => machine.instanceType = wanted
      pure (max 0 ((backend.aws.maxInstances.lookup gpuType).getD 0 - inUse))

def freeSlots (gpuType : String) : Aws Int := do
  if !backend.supports gpuType then pure 0
  else do
    match ← recollect backend.name Memory.coolingUntil with
    | none => backend.countedSlots weather gpuType
    | some coolingUntil => do
        let now ← Ec2.now weather
        if now < coolingUntil then pure 0
        else do
          note backend.name fun memory => { memory with coolingUntil := none, failures := 0 }
          backend.countedSlots weather gpuType

/-- The least price shown for a type. -/
def bestPrice (history : List (String × Decimal)) (kind : String) : Option Decimal :=
  ((history.filter fun entry => entry.1 = kind).map Prod.snd).min?

/-- The candidate of the least recent price; of two, the one that is listed first. -/
def cheapestOf (history : List (String × Decimal)) (candidates : List String) : Option String :=
  let priced := candidates.filterMap fun kind => (bestPrice history kind).map fun price => (kind, price)
  (priced.foldl
    (fun best entry =>
      match best with
      | none => some entry
      | some least => if entry.2 < least.2 then some entry else some least)
    none).map Prod.fst

/-- Pick a spot instance type by recent price. -/
def cheapestType (gpuType : String) : Aws String := do
  match (backend.aws.spotInstanceTypes.lookup gpuType).getD [] with
  | [] => .fail s!"no spot instance types configured for {gpuType}"
  | [only] => pure only
  | first :: rest => do
      match ← ask weather .describeSpotPriceHistory id
        (fun account => .ok (weather.spotPrices account.requests)) with
      | .error _ => pure first
      | .ok history => pure ((cheapestOf history (first :: rest)).getD first)

def guardCapacity (job : Job) : Aws Unit := do
  if backend.aws.missing ≠ [] then
    .fail ("cannot launch: " ++ " and ".intercalate backend.aws.missing ++
      " is not set in config.json. The AMI needs the SSM agent; the instance profile needs " ++
      "AmazonSSMManagedInstanceCore and logs:PutLogEvents.")
  else if !backend.supports job.gpuType then
    .fail s!"{backend.name} has no instance type mapped for {job.gpuType}"
  else do
    let free ← backend.freeSlots weather job.gpuType
    let limit := (backend.aws.maxInstances.lookup job.gpuType).getD 0
    if free ≤ 0 then .fail s!"{backend.name} is at its {job.gpuType} limit of {limit} instances"
    else pure ()

/-- The type and the tags of a launch. -/
def runParams (job : Job) : Aws (String × List (String × String)) := do
  let now ← Ec2.now weather
  let tags := tagsFor job (backend.stamps.toIso now)
  if backend.spot then do
    let kind ← backend.cheapestType weather job.gpuType
    pure (kind, tags)
  else
    match backend.aws.instanceTypeFor job.gpuType with
    | some kind => pure (kind, tags)
    | none => .fail s!"no EC2 instance type mapped for gpu type {job.gpuType}"

/-- Count a spot request that failed, and stand down for a while after several. -/
def noteFailure : Aws Unit := do
  if !backend.spot then pure ()
  else do
    note backend.name fun memory => { memory with failures := memory.failures + 1 }
    let failures ← recollect backend.name Memory.failures
    if backend.maxLaunchFailures ≤ failures then do
      let now ← Ec2.now weather
      note backend.name fun memory => { memory with coolingUntil := some (now + backend.cooldown) }
    else pure ()

/-- The identifier of the machine launched after a number of others. -/
def idOf (launched : Nat) : String := "i-" ++ launched.repr

/-- The account with one more machine. -/
def withMachine (kind : String) (tags : List (String × String)) (account : Ec2) : Ec2 :=
  { account with
    launched := account.launched ++ [backend.name]
    instances := account.instances ++
      [⟨idOf account.launched.length, kind, .pending, "", backend.spot, false, tags⟩] }

def launch (job : Job) : Aws Allocation := do
  backend.guardCapacity weather job
  let (kind, tags) ← backend.runParams weather job
  match ← ask weather .runInstances (backend.withMachine kind tags)
    (fun account => .ok (idOf account.launched.length)) with
  | .error code => do
      backend.noteFailure weather
      .fail s!"could not launch {job.gpuType}: {code}"
  | .ok handle => do
      note backend.name fun memory => { memory with failures := 0, cache := none }
      pure { handle, gpuType := job.gpuType }

/-! ### Starting -/

/-- Does the account have the machine, and does its agent take commands? -/
def listening (handle : String) (account : Ec2) : Bool :=
  account.instances.any fun machine =>
    machine.instanceId = handle && machine.state = .running && machine.online

/-- The account after a job's command was accepted: the machine runs it. -/
def commanded (handle : String) (account : Ec2) : Ec2 :=
  if listening handle account then
    { account with commands := account.commands + 1, sent := account.sent ++ [handle] }
  else account

/-- The account after the command of a sampler was accepted. -/
def sampled (handle : String) (account : Ec2) : Ec2 :=
  if listening handle account then { account with commands := account.commands + 1 } else account

/-- The identifier of the command that is accepted next. -/
def acceptance (handle : String) (account : Ec2) : Except String String :=
  if listening handle account then .ok ("c-" ++ account.commands.repr) else .error "InvalidInstanceId"

/-- The account with tags set on a machine. -/
def tagging (handle : String) (tags : List (String × String)) (account : Ec2) : Ec2 :=
  { account with
    instances := account.instances.map fun machine =>
      if machine.instanceId = handle then { machine with tags := tags.foldl withTag machine.tags }
      else machine }

/-- Start the GPU watcher alongside the job, if that works. -/
def startSampler (handle : String) : Aws (Option String) := do
  match ← ask weather (.sendSampler handle) (sampled handle) (acceptance handle) with
  | .error _ => pure none
  | .ok sampler => pure (some sampler)

def tag (handle : String) (tags : List (String × String)) : Aws Unit := do
  match ← ask weather (.createTags handle) (tagging handle tags) fun _ => .ok () with
  | .error code => .fail s!"could not tag {handle}: {code}"
  | .ok () => pure ()

/-- The tags that record a command, and its sampler when there is one. -/
def commandTags (command : String) (sampler : Option String) : List (String × String) :=
  (tagCommandId, command) :: (truthy sampler).toList.map fun id => (tagSamplerId, id)

/-- Send the job's command to an instance whose agent has registered. -/
def start (handle : String) (_job : Job) : Aws Unit := do
  match ← backend.commandId weather handle with
  | some _ => pure ()  -- already started; a second send would run the job twice
  | none => do
      match ← ask weather (.sendCommand handle) (commanded handle) (acceptance handle) with
      | .error code => .fail s!"could not start job on {handle}: {code}"
      | .ok command => do
          let sampler ← startSampler weather handle
          -- recorded on the instance, not in memory: the broker can restart after the send
          tag weather handle (commandTags command sampler)
          backend.invalidate

/-! ### Polling -/

def ssmStatus : List (String × BackendStatus) :=
  [("Pending", .running), ("InProgress", .running), ("Delayed", .running), ("Success", .completed),
    ("Cancelled", .failed), ("TimedOut", .failed), ("Failed", .failed), ("Cancelling", .running),
    ("Undeliverable", .failed), ("Terminated", .failed)]

/-- What a status of SSM comes to. -/
def observed (invocation : Invocation) : Observation :=
  let status := (ssmStatus.lookup invocation.status).getD .running
  let detail := (truthy (some invocation.statusDetails)).getD invocation.status
  let detail :=
    if status = .failed then
      (s!"{invocation.status}: {(truthy (some invocation.standardError)).getD detail}").trimAscii.copy
    else detail
  { status
    exitCode := invocation.responseCode.filter fun code => 0 ≤ code
    detail := some (String.ofList (detail.toList.take 500)) }

def invocation (handle command : String) : Aws Observation := do
  match ← ask weather (.getCommandInvocation handle) id
    (fun account => weather.invocation account.requests handle command) with
  | .ok result => pure (observed result)
  | .error code =>
      if code = "InvocationDoesNotExist" ∨ code = "InvalidCommandId" then
        -- accepted by SSM but not yet visible against this instance
        pure { status := .running, exitCode := none, detail := some "command dispatching" }
      else .fail s!"could not poll {handle}: {code}"

/-- Has the SSM agent on this instance checked in yet? Any failure means not yet. -/
def agentOnline (handle : String) : Aws Bool := do
  match ← ask weather (.describeInstanceInformation handle) id
    (fun account => .ok (account.instances.any fun machine =>
      machine.instanceId = handle && machine.online)) with
  | .ok online => pure online
  | .error _ => pure false

/-- What a machine that is gone or going says of its job. -/
def gone (machine : Instance) : Observation :=
  let reclaimed := machine.stateReason = "Server.SpotInstanceTermination"
  if reclaimed ∨ machine.spot = true then
    { status := .interrupted
      exitCode := none
      detail := some
        (if reclaimed then "spot capacity was reclaimed"
        else s!"spot instance {machine.state.text} before the job finished") }
  else
    { status := .failed
      exitCode := none
      detail := some (s!"the instance was {machine.state.text} outside the broker before the job " ++
        "finished. On-demand capacity is not reclaimed, so somebody terminated it") }

/-- When a machine was launched, by its tags. -/
def launchedAtOf (stamps : Stamps) (tags : List (String × String)) : Option Time :=
  (truthy (tags.lookup tagLaunchedAt)).bind stamps.fromIso

/-- A machine that is up and was never tagged with a command: is its agent there? -/
def awaitAgent (machine : Instance) : Aws Observation := do
  if ← agentOnline weather machine.instanceId then
    pure { status := .ready, exitCode := none, detail := some "ssm agent registered" }
  else
    let waiting : Observation :=
      { status := .pending, exitCode := none, detail := some "waiting for the ssm agent" }
    match launchedAtOf backend.stamps machine.tags with
    | none => pure waiting
    | some launched => do
        let now ← Ec2.now weather
        if backend.aws.agentTimeout < now - launched then
          pure
            { status := .failed
              exitCode := none
              detail := some ("the SSM agent never registered. Check that " ++
                backend.aws.ami.getD "None" ++ " has the agent and that " ++
                backend.aws.instanceProfile.getD "None" ++ " grants AmazonSSMManagedInstanceCore.") }
        else pure waiting

def poll (handle : String) : Aws Observation := do
  match ← backend.instanceOf weather handle with
  | none => pure { status := .gone, exitCode := none, detail := some "no such instance" }
  | some machine =>
      match machine.state with
      | .shuttingDown | .terminated =>
          -- if the command finished before the instance went away, the teardown is just teardown
          match truthy machine.commandId with
          | some command => do
              let observation ← invocation weather handle command
              if observation.status = .completed ∨ observation.status = .failed then pure observation
              else pure (gone machine)
          | none => pure (gone machine)
      | .stopping | .stopped =>
          pure
            { status := .failed
              exitCode := none
              detail := some s!"instance {machine.state.text}; it was stopped outside the broker" }
      | .pending => pure { status := .pending, exitCode := none, detail := some "instance booting" }
      | .running =>
          match machine.commandId with
          | some command => invocation weather handle command
          | none => backend.awaitAgent weather machine

/-! ### Output -/

/-- Where SSM puts a command's output. -/
def commandLogStream (command handle stream : String) : String :=
  s!"{command}/{handle}/aws-runShellScript/{stream}"

/-- Keep what a read of a stream left it at. -/
def leaving (name : String) (answer : Except String (List String × Option String)) : Ec2 → Ec2 :=
  match answer with
  | .ok (_, some token) =>
      remember backend.name fun memory => { memory with tokens := withTag memory.tokens (name, token) }
  | _ => id

/-- A text without the newlines at its end. -/
def chomped (text : String) : String :=
  String.ofList (text.toList.reverse.dropWhile fun letter => letter = '\n').reverse

/-- What a stream holds after the place it was left at. -/
def readStream (command handle stream : String) : Aws (List Line) := do
  let name := commandLogStream command handle stream
  let token ← recollect backend.name fun memory => memory.tokens.lookup name
  match ← request weather (.getLogEvents handle) id
    (fun account => weather.logEvents account.requests name token) (backend.leaving name) with
  | .ok (messages, _) => pure (messages.map fun message => (stream, chomped message))
  | .error code =>
      if code = "ResourceNotFoundException" then pure []
      else .fail s!"could not read logs for {handle}: {code}"

/-- The lines kept for an instance. -/
def Memory.linesOf (handle : String) (memory : Memory) : List Line := (memory.lines.lookup handle).getD []

/-- Keep more lines for an instance. -/
def keepLines (handle : String) (more : List Line) : Aws Unit :=
  note backend.name fun memory =>
    { memory with
      lines := (handle, Memory.linesOf handle memory ++ more) ::
        memory.lines.filter fun entry => entry.1 ≠ handle }

def fetchLogs (handle : String) (after : Nat) : Aws (List Line) := do
  match ← backend.commandId weather handle with
  | none => pure []
  | some command => do
      let printed ← backend.readStream weather command handle "stdout"
      backend.keepLines handle printed
      let complained ← backend.readStream weather command handle "stderr"
      backend.keepLines handle complained
      let lines ← recollect backend.name (Memory.linesOf handle)
      pure (lines.drop after)

def sampleUtilization (handle : String) : Aws (List Reading) := do
  match ← backend.instanceOf weather handle with
  | none => pure []
  | some machine =>
      match truthy (machine.tags.lookup tagSamplerId) with
      | none => pure []
      | some sampler => do
          let lines ← backend.readStream weather sampler handle "stdout"
          pure (lines.filterMap fun line => backend.parseSample line.2)

/-! ### Terminating and listing -/

/-- The account with a machine shut down. -/
def shutting (handle : String) (account : Ec2) : Ec2 :=
  { account with
    instances := account.instances.map fun machine =>
      if machine.instanceId = handle ∧ machine.state ≠ .terminated then
        { machine with state := .shuttingDown, stateReason := "Client.UserInitiatedShutdown" }
      else machine }

/-- Stop and release. Safe to call on something already gone. -/
def terminate (handle : String) (_reason : String) : Aws Unit := do
  match ← backend.commandId weather handle with
  | some _ => do
      -- whatever comes of it, the machine is terminated below
      let _ ← ask weather (.cancelCommand handle) id fun _ => .ok ()
      pure ()
  | none => pure ()
  match ← ask weather (.terminateInstances handle) (shutting handle)
    (fun account =>
      if account.instances.any fun machine => machine.instanceId = handle then .ok ()
      else .error "InvalidInstanceID.NotFound") with
  | .ok () => backend.invalidate
  | .error code => do
      backend.invalidate
      if unknownInstance code then pure () else .fail s!"could not terminate {handle}: {code}"

/-- The GPU type an instance type stands for. -/
def gpuTypeOf (instanceType : String) : String :=
  ((backend.aws.instanceTypes.find? fun mapping => mapping.2 = instanceType).map Prod.fst).getD instanceType

/-- The status of a machine, from its state and tags alone. -/
def coarseStatus (machine : Instance) : BackendStatus :=
  match machine.state with
  | .pending => .pending
  | .stopping | .stopped => .failed
  | _ => if (truthy machine.commandId).isSome then .running else .ready

end Ec2Backend

/-- Something a backend is holding. -/
structure Resource where
  handle : String
  gpuType : String
  status : BackendStatus
  tags : List (String × String)
  deriving DecidableEq

namespace Ec2Backend

open Ec2

/-- What the backend makes of a machine. -/
def resourceOf (backend : Ec2Backend) (machine : Instance) : Resource :=
  { handle := machine.instanceId
    gpuType := backend.gpuTypeOf machine.instanceType
    status := coarseStatus machine
    tags := machine.tags }

def listResources (backend : Ec2Backend) (weather : Weather) : Aws (List Resource) := do
  let found ← backend.instances weather
  pure (found.map backend.resourceOf)

end Ec2Backend

end GpuBroker.Broker
