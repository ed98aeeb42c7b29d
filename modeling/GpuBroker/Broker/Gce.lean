/-
This file is the GCE backend: the machines of a project with the scripts that
run on them, and the methods of the backend as programs of requests.

What is run on a machine over SSH is a script: it takes a step at a time, in
turn with the other scripts there, and goes on when nobody waits for it any
more. Any of its steps may fail, and it may get no further. Requests fail as
those to AWS do, and the machines come up, change their addresses and go away
by themselves.
-/
import GpuBroker.Broker.Ec2
import Mathlib.Data.List.Sort

namespace GpuBroker.Broker

open Library

/-! ### Machines -/

inductive VmStatus where
  | provisioning
  | staging
  | running
  | suspending
  | suspended
  | repairing
  | stopping
  | stopped
  | deleting
  | terminated
  deriving DecidableEq

def VmStatus.text : VmStatus → String
  | provisioning => "PROVISIONING"
  | staging => "STAGING"
  | running => "RUNNING"
  | suspending => "SUSPENDING"
  | suspended => "SUSPENDED"
  | repairing => "REPAIRING"
  | stopping => "STOPPING"
  | stopped => "STOPPED"
  | deleting => "DELETING"
  | terminated => "TERMINATED"

/-- The states of a machine that is gone, for the broker. -/
def VmStatus.gone : VmStatus → Bool
  | deleting | terminated | stopping | stopped => true
  | _ => false

/-- Where the script is that starts a job. -/
inductive ScriptStep where
  | prepare
  | claim
  | write
  | release
  | dispatch
  | check
  | ended (code : Nat)
  deriving DecidableEq

/-- A script that starts a job, in the directory of the job. -/
structure Script where
  root : String
  command : String
  step : ScriptStep
  deriving DecidableEq

/-- A machine: what GCE says of it, and what is on it. The directories `started` and the files with
commands and exit codes are kept by the directory of the job; so are the commands that were run. -/
structure Vm where
  name : String
  status : VmStatus
  address : Option String
  labels : List (String × String)
  metadata : List (String × String)
  started : List String
  commands : List (String × String)
  exitCodes : List (String × String)
  runs : List (String × String)
  scripts : List Script
  deriving DecidableEq

namespace Vm

/-- The machine with a script at another step. -/
def goto (vm : Vm) (number : Nat) (script : Script) (step : ScriptStep) : Vm :=
  { vm with scripts := vm.scripts.set number { script with step } }

/-- A script takes its next step, which may fail. -/
def turn (vm : Vm) (number : Nat) (fails : Bool) : Vm :=
  match vm.scripts[number]? with
  | none => vm
  | some script =>
      let root := script.root
      match script.step with
      | .prepare => vm.goto number script (if fails then .ended 1 else .claim)
      | .claim =>
          -- of several scripts that make the directory, one does
          if fails ∨ root ∈ vm.started then vm.goto number script .check
          else { vm.goto number script .write with started := root :: vm.started }
      | .write =>
          if fails then vm.goto number script .release
          else
            { vm.goto number script .dispatch with
              commands := withTag vm.commands (root, script.command) }
      | .release =>
          { vm.goto number script (.ended 1) with
            started := if fails then vm.started else vm.started.erase root }
      | .dispatch =>
          -- a child that cannot be made fails by itself, in the background
          { vm.goto number script (.ended 0) with
            runs := if fails then vm.runs
              else vm.runs ++ [(root, (vm.commands.lookup root).getD "")] }
      | .check => vm.goto number script (.ended (if root ∈ vm.started then 0 else 1))
      | .ended _ => vm

/-- Scripts take turns. -/
def turns (vm : Vm) : List (Nat × Bool) → Vm
  | [] => vm
  | (number, fails) :: rest => (vm.turn number fails).turns rest

/-- A new script. -/
def spawn (vm : Vm) (root command : String) : Vm :=
  { vm with scripts := vm.scripts ++ [⟨root, command, .prepare⟩] }

end Vm

/-! ### Requests -/

/-- What is asked of GCE, or of a machine over SSH. -/
inductive GceRequest where
  | get (name : String)
  | list
  | insert (name : String)
  | delete (name : String)
  | run (address : String)
  deriving DecidableEq

/-- What the broker has no say in: the clock, what becomes of its requests, what becomes of machines by
the time of a request, which steps their scripts take before it and while it is waited for, what a failed
script complains of, and what the commands of jobs print. -/
structure Region where
  clock : Nat → Time
  fate : Nat → Fate
  moves : Nat → Vm → Option (VmStatus × Option String × List (String × String))
  turns : Nat → Vm → List (Nat × Bool)
  meanwhile : Nat → Vm → List (Nat × Bool)
  complaint : Nat → String
  output : Nat → Vm → String → List String
  readings : Nat → Vm → List String

/-- The project, and the logs one process keeps of machines it deleted. -/
structure Gce where
  vms : List Vm
  requests : Nat
  readings : Nat
  deletedLogs : List (String × List Line)

namespace Gce

/-- A project without machines, and a process that has just started. -/
def new : Gce := ⟨[], 0, 0, []⟩

/-- The project as another process finds it. -/
def forget (project : Gce) : Gce := { project with deletedLogs := [] }

/-- The project when a request arrives. -/
def arrived (region : Region) (project : Gce) : Gce :=
  { project with
    requests := project.requests + 1
    vms := project.vms.filterMap fun vm =>
      (region.moves project.requests vm).map fun (status, address, exitCodes) =>
        { vm.turns (region.turns project.requests vm) with status, address, exitCodes } }

/-- A program of requests to GCE. -/
abbrev Requests (α : Type) := Program Gce GceRequest String α

/-- A request, with what it answers and changes when it takes effect. -/
def ask {α : Type} (region : Region) (label : GceRequest) (act : Gce → Except String α × Gce) :
    Requests (Except String α) :=
  .access (some label)
    (fun project =>
      let here := project.arrived region
      match region.fate project.requests with
      | .answered => act here
      | .refused code => (.error code, here)
      | .unanswered => (.error "DeadlineExceeded", (act here).2))
    .done

/-- A reading of the clock. -/
def now (region : Region) : Requests Time :=
  Program.quietly fun project =>
    (region.clock project.readings, { project with readings := project.readings + 1 })

/-- The machine of a name. -/
def named (name : String) (project : Gce) : Option Vm := project.vms.find? fun vm => vm.name = name

/-- The machine that answers at an address. -/
def answering (address : String) (project : Gce) : Option Vm :=
  project.vms.find? fun vm => vm.address = some address

/-- The project with the machine of a name changed. -/
def change (name : String) (becomes : Vm → Vm) (project : Gce) : Gce :=
  { project with vms := project.vms.map fun vm => if vm.name = name then becomes vm else vm }

/-- The project while something is run on the machine at an address. -/
def running (region : Region) (address : String) (effect : Vm → Vm) (project : Gce) : Gce :=
  match project.answering address with
  | none => project
  | some vm => project.change vm.name fun vm =>
      (effect vm).turns (region.meanwhile project.requests vm)

/-- How something that was run ends, and what it prints. -/
abbrev Reply := Nat → Vm → Option (Nat × List String)

/-- Run something on the machine at an address and wait for it: how it ends, what it prints and what it
complains of. -/
def ssh (region : Region) (address : String) (effect : Vm → Vm) (reply : Reply) :
    Requests (Except String (Nat × List String × String)) :=
  ask region (.run address) fun project =>
    let after := running region address effect project
    match after.answering address with
    | none => (.error "connection refused", after)
    | some vm =>
        match reply project.requests vm with
        | none => (.error "no response", after)
        | some (code, printed) => (.ok (code, printed, region.complaint project.requests), after)

/-- Run something on a machine, and give what it prints or why it failed. -/
def run (region : Region) (address action : String) (effect : Vm → Vm) (reply : Reply) :
    Requests (Except String (List String)) := do
  match ← ssh region address effect reply with
  | .error detail => pure (.error s!"{action} failed on {address}: {detail}")
  | .ok (code, printed, complaint) =>
      if code = 0 then pure (.ok printed)
      else
        let detail := ((truthy (some complaint)).getD ("\n".intercalate printed)).trimAscii.copy
        let detail := String.ofList (detail.toList.take 300)
        pure (.error s!"{action} failed on {address}: {detail}")

/-- What was raised ends the call. -/
def orFail {α : Type} : Except String α → Requests α
  | .ok value => pure value
  | .error detail => .fail detail

end Gce

/-! ### The backend -/

/-- Explicit GCE inputs. -/
structure GceConfig where
  project : String
  bootImage : String
  sshPrivateKey : String
  knownHosts : String
  machineTypes : List (String × String)
  acceleratorTypes : List (String × String)
  acceleratorCounts : List (String × Int)
  maxInstances : List (String × Int)

/-- The backend, with how it writes a moment as a label and reads a sample. -/
structure GceBackend where
  config : GceConfig
  labelStamp : Time → String
  parseSample : List String → Option Reading

namespace GceConfig

/-- The settings that are missing for a launch. -/
def missing (config : GceConfig) : List String :=
  [("gce.project", config.project), ("gce.boot_image", config.bootImage),
    ("gce.ssh_private_key", config.sshPrivateKey), ("gce.known_hosts", config.knownHosts)].filterMap
      fun setting => if setting.2 = "" then some setting.1 else none

/-- The names that have a machine type but no entry of another kind, in order. -/
def lacking {α : Type} (config : GceConfig) (entries : List (String × α)) : List String :=
  ((config.machineTypes.map Prod.fst).filter fun name => (entries.lookup name).isNone).insertionSort (· ≤ ·)

/-- Why nothing can be launched, if nothing can. -/
def unlaunchable (config : GceConfig) : Option String :=
  if config.missing ≠ [] then
    some ("cannot launch GCE: " ++ ", ".intercalate config.missing ++ " must be set")
  else if config.machineTypes.isEmpty then
    some "cannot launch GCE: gce.machine_types must map at least one GPU type"
  else if config.lacking config.maxInstances ≠ [] then
    some ("gce.max_instances is missing " ++ ", ".intercalate (config.lacking config.maxInstances))
  else if config.lacking config.acceleratorTypes ≠ [] then
    some ("gce.accelerator_types is missing " ++
      ", ".intercalate (config.lacking config.acceleratorTypes))
  else if config.machineTypes.any fun entry => entry.2 = "" then
    some "gce.machine_types values cannot be empty"
  else if config.acceleratorTypes.any fun entry => entry.2 = "" then
    some "gce.accelerator_types values cannot be empty"
  else if config.maxInstances.any fun entry => entry.2 < 0 then
    some "gce.max_instances values must be non-negative integers"
  else if config.acceleratorCounts.any fun entry => entry.2 < 1 then
    some "gce.accelerator_counts values must be positive integers"
  else none

end GceConfig

/-! ### Names and labels -/

def tagGpuType : String := "broker-gpu-type"

/-- A letter in lower case, as far as labels can tell: two letters outside ASCII have one in it. -/
def lowered (letter : Char) : List Char :=
  if letter = '\u212a' then ['k'] else if letter = '\u0130' then ['i', '\u0307'] else [letter.toLower]

/-- May a letter stand in a label? -/
def labelled (letter : Char) : Bool :=
  ('a' ≤ letter ∧ letter ≤ 'z') ∨ ('0' ≤ letter ∧ letter ≤ '9') ∨ letter = '_' ∨ letter = '-'

/-- A text as the value of a label. -/
def labelOf (text : String) : String :=
  let letters := (text.toList.flatMap lowered).map fun letter => if labelled letter then letter else '-'
  let outer := fun letter => letter = '-' || letter = '_'
  let stripped := ((letters.dropWhile outer).reverse.dropWhile outer).reverse
  let begun := if stripped.head?.any Char.isAlpha then stripped else 'x' :: '-' :: stripped
  String.ofList (begun.take 63)

/-- May a job of this identifier run on GCE? -/
def safeId (id : String) : Bool :=
  0 < id.length && id.length ≤ 63 && id.toList.all fun letter => letter.isAlphanum || letter = '-'

def unsafeText : String := "job id must contain only letters, digits, and hyphens for GCE"

/-- The name of the machine of a job. -/
def instanceName (id : String) : Except String String :=
  if !safeId id then .error unsafeText
  else if 52 < id.length then .error "job id is too long for a GCE instance name"
  else .ok ("gpu-broker-" ++ String.ofList (id.toList.map Char.toLower))

/-- The directory of a job on its machine. -/
def rootOf (id : String) : String := "/tmp/gpu-broker/jobs/" ++ id

namespace GceBackend

open Gce

variable (backend : GceBackend) (region : Region)

def name : String := "gce"

def supports (gpuType : String) : Bool := (backend.config.machineTypes.lookup gpuType).isSome

/-! ### Capacity and launch -/

/-- What the backend makes of a machine. -/
def resourceOf (vm : Vm) : Resource :=
  { handle := vm.name
    gpuType := (vm.labels.lookup tagGpuType).getD ""
    status := if vm.status.gone then .gone else .running
    tags := [(tagJobId, (vm.metadata.lookup tagJobId).getD ""),
      (tagUser, (vm.metadata.lookup tagUser).getD "")] }

/-- The machines with the label of a job. -/
def tagged (project : Gce) : List Vm :=
  project.vms.filter fun vm => (vm.labels.lookup tagJobId).isSome

def listResources : Requests (List Resource) := do
  match ← ask region .list fun project => (.ok (tagged project), project) with
  | .ok found => pure (found.map resourceOf)
  | .error detail => .fail s!"could not list GCE instances: {detail}"

/-- The states in which a resource takes no slot. -/
def finished : BackendStatus → Bool
  | .gone | .completed | .failed | .interrupted => true
  | _ => false

def freeSlots (gpuType : String) : Requests Int := do
  if !backend.supports gpuType then pure 0
  else do
    let found ← listResources region
    let inUse := found.countP fun resource => resource.gpuType = gpuType && !finished resource.status
    pure (max 0 ((backend.config.maxInstances.lookup gpuType).getD 0 - inUse))

/-- The machine a job is launched on. -/
def machineOf (name : String) (job : Job) (launchedAt : Time) : Vm where
  name
  status := .provisioning
  address := none
  labels := [(tagJobId, labelOf job.jobId), (tagUser, labelOf job.userId),
    (tagGpuType, labelOf job.gpuType), (tagLaunchedAt, "t-" ++ backend.labelStamp launchedAt)]
  metadata := [(tagJobId, job.jobId), (tagUser, job.userId)]
  started := []
  commands := []
  exitCodes := []
  runs := []
  scripts := []

/-- The project with one more machine, if its name is free. -/
def inserting (vm : Vm) (project : Gce) : Except String Unit × Gce :=
  if (project.named vm.name).isSome then (.error "409 alreadyExists", project)
  else (.ok (), { project with vms := project.vms ++ [vm] })

/-- Why a job cannot be launched here at all, if it cannot. -/
def unfit (job : Job) : Option String :=
  if let some detail := backend.config.unlaunchable then some detail
  else if job.resumable ∨ (truthy job.environment).isSome then
    some "GCE adapter does not support broker checkpoints or named container environments"
  else if !backend.supports job.gpuType then some s!"GCE has no {job.gpuType} machine type configured"
  else none

def launch (job : Job) : Requests Allocation := do
  orFail (match backend.unfit job with | some detail => .error detail | none => .ok ())
  let free ← backend.freeSlots region job.gpuType
  if free < 1 then .fail s!"GCE has no free {job.gpuType} slots"
  else do
    let name ← orFail (instanceName job.jobId)
    let moment ← Gce.now region
    match ← ask region (.insert name) (inserting (backend.machineOf name job moment)) with
    | .error detail => .fail s!"could not create GCE instance: {detail}"
    | .ok () => pure { handle := name, gpuType := job.gpuType }

/-! ### Machines and what runs on them -/

/-- Does an error say that there is no such machine? -/
def unknown (detail : String) : Bool := detail.contains "notFound" || detail.contains "404"

/-- The machine of a handle, as GCE shows it. One that is gone is shown as terminated and bare. -/
def get (handle : String) : Requests Vm := do
  match ← ask region (.get handle) fun project =>
      ((project.named handle).elim (.error "404 notFound") .ok, project) with
  | .ok vm => pure vm
  | .error detail =>
      if unknown detail then pure ⟨handle, .terminated, none, [], [], [], [], [], [], []⟩
      else .fail s!"could not inspect GCE instance {handle}: {detail}"

/-- The address of a machine. -/
def hostOf (vm : Vm) : Requests String :=
  match vm.address with
  | some address => pure address
  | none => .fail "cannot reach GCE instance: instance has no reachable network address"

/-- The job a machine is for, by its metadata. -/
def jobOf (handle : String) (vm : Vm) : String :=
  (vm.metadata.lookup tagJobId).getD
    (if "gpu-broker-".isPrefixOf handle then String.ofList (handle.toList.drop 11) else handle)

/-- How the last script on a machine has ended, once it has. -/
def lastEnded : Reply := fun _ vm =>
  vm.scripts.getLast?.bind fun script =>
    match script.step with
    | .ended code => some (code, [])
    | _ => none

/-- Prepare and dispatch under an atomic remote claim. -/
def start (handle : String) (job : Job) : Requests Unit := do
  let vm ← get region handle
  let host ← hostOf vm
  if !safeId job.jobId then .fail unsafeText
  else do
    let _ ← run region host "start GCE job" (·.spawn (rootOf job.jobId) job.command) lastEnded >>= orFail
    pure ()

/-- What the files of a job say. -/
def marker (root : String) (vm : Vm) : String :=
  match vm.exitCodes.lookup root with
  | some code => code
  | none => if root ∈ vm.started then "RUNNING" else "READY"

def poll (handle : String) : Requests Observation := do
  let vm ← get region handle
  if vm.status.gone then
    pure { status := .gone, exitCode := none, detail := some s!"GCE instance is {vm.status.text}" }
  else if vm.status ≠ .running then
    pure { status := .pending, exitCode := none, detail := some s!"GCE instance is {vm.status.text}" }
  else do
    let host ← hostOf vm
    let id := (vm.metadata.lookup tagJobId).getD "unknown"
    if !safeId id then .fail unsafeText
    else
      match ← run region host "poll GCE job" (fun vm => vm)
          fun _ vm => some (0, [marker (rootOf id) vm]) with
      | .error detail =>
          pure { status := .pending, exitCode := none, detail := some s!"waiting for SSH: {detail}" }
      | .ok printed =>
          let marker := ("\n".intercalate printed).trimAscii.copy
          if marker = "READY" then pure { status := .ready, exitCode := none, detail := none }
          else if marker = "RUNNING" then pure { status := .running, exitCode := none, detail := none }
          else
            match marker.toInt? with
            | none =>
                let shown := String.ofList (marker.toList.take 80)
                .fail s!"GCE job status is invalid: {shown}"
            | some code =>
                pure
                  { status := if code = 0 then .completed else .failed
                    exitCode := some code
                    detail := some s!"remote process exited {code}" }

/-! ### Output -/

def fetchLogs (handle : String) (after : Nat) : Requests (List Line) := do
  match ← Program.read fun project => project.deletedLogs.lookup handle with
  | some cached => pure (cached.drop after)
  | none => do
      let host ← get region handle >>= hostOf
      let id ← jobOf handle <$> get region handle
      if !safeId id then .fail unsafeText
      else do
        let lines ← run region host "read GCE job logs" (fun vm => vm)
          (fun request vm => some (0, (region.output request vm (rootOf id)).drop after)) >>= orFail
        pure (lines.map fun line => ("combined", line))

def sampleUtilization (handle : String) : Requests (List Reading) := do
  let host ← get region handle >>= hostOf
  let lines ← run region host "sample GCE GPU utilization" (fun vm => vm)
    (fun request vm => some (0, region.readings request vm)) >>= orFail
  match backend.parseSample lines with
  | some reading => pure [reading]
  | none => .fail "GCE nvidia-smi returned an unsupported response"

/-! ### Terminating -/

/-- Keep the output of a machine that is deleted. -/
def keepLogs (handle : String) (lines : List Line) : Requests Unit :=
  Program.quietly fun project =>
    ((), { project with
      deletedLogs := (handle, lines) :: project.deletedLogs.filter fun entry => entry.1 ≠ handle })

/-- The project with a machine on its way out. -/
def deleting (handle : String) (project : Gce) : Except String Unit × Gce :=
  if (project.named handle).isSome then
    (.ok (), project.change handle fun vm => { vm with status := .deleting })
  else (.error "404 notFound", project)

def terminate (handle : String) (_reason : String) : Requests Unit := do
  match ← (fetchLogs region handle 0).attempt with
  | .ok lines => keepLogs handle lines
  | .error detail => keepLogs handle [("broker", s!"final GCE log read failed: {detail}")]
  match ← ask region (.delete handle) (deleting handle) with
  | .ok () => pure ()
  | .error detail =>
      if unknown detail then pure () else .fail s!"could not delete GCE instance {handle}: {detail}"

end GceBackend

end GpuBroker.Broker
