/-
This file is the loop of the worker agent: what it holds in memory and on disk, the
calls it makes, and its programs.

What the control plane, the runtime and the disk answer is read from a tape, one
reading for each question, so a run is made among any answers. An access that
changes the disk, the books of the control plane or what the agent holds carries a
label, and a run that is stopped anywhere is a crash at that point.
-/
import GpuBroker.Agent.Spool
import GpuBroker.Library.Files
import Mathlib.Data.List.Sort

namespace GpuBroker.Agent

open Library ControlPlane

/-! ### What the agent asks -/

/-- What a call to the control plane comes to: it fails on the way, it is answered with what was asked
for, or with another status. -/
inductive Response (Value : Type) where
  | failed
  | ok (value : Value)
  | status (code : Nat)
  deriving DecidableEq

/-- What a report comes to. The control plane has accepted it when the answer says so, and otherwise it
may have. -/
structure Answer where
  response : Response Unit
  accepted : Bool
  honest : response = .ok () → accepted = true
  deriving DecidableEq

/-- What an acknowledgement of a dispatch comes to. -/
inductive AckAnswer
  | run | cancel | alreadyAcknowledged
  deriving DecidableEq

/-- What a runtime needs to start an attempt. -/
structure Spec where
  attemptID : AttemptID
  jobID : JobID := ""
  image : String := ""
  command : List String := []
  gpus : Int := 0
  maxRuntime : Duration := 0
  deriving DecidableEq

/-- A runtime's view of one attempt; an outcome outside the known ones is absent. -/
structure Status where
  done : Bool
  outcome : Option AttemptOutcome
  exitCode : Option Int
  reason : String
  logs : List String
  artifact : Bool
  deriving DecidableEq

/-- An order in which the keys of a map are visited. -/
structure Order where
  visit : List AttemptID → List AttemptID
  perm : ∀ ids, (visit ids).Perm ids

/-- One reading: what each kind of question is answered when it comes next. -/
structure Reading where
  now : Time
  /-- What becomes of an append to a spool file. -/
  sync : Sync
  /-- Whether another change of the disk succeeds. -/
  saved : Bool
  answer : Answer
  heartbeat : Response Service.HeartbeatResult
  claim : Response (List Service.Dispatch)
  ack : Response AckAnswer
  /-- Whether the runtime stops an attempt. -/
  stopped : Bool
  /-- The error of starting an attempt, if there is one. -/
  start : Option String
  status : Option Status
  listed : Option (List AttemptID)
  draining : Bool
  /-- Whether the marker of an interruption can be looked for. -/
  looked : Bool
  /-- Whether the provider's notice says to leave the node. -/
  interrupted : Bool
  uploaded : Bool
  order : Order

/-- What ends a program of the agent early. -/
inductive Fault
  | spoolUnreadable | notWritten | transport | status (call : String) (code : Nat)
  | abandon (id : AttemptID) | runtime | leaseInvalid | upload | marker
  deriving DecidableEq

/-! ### What the agent holds -/

structure Config where
  runtime : String
  maxConcurrent : Nat
  specDigest : String → List String → Int → Int → String
  verify : AttemptID → WorkerID → Time → String → String → Bool

/-- What a process of the agent knows and a crash takes from it. -/
structure Memory where
  running : Table Spec Spec.attemptID
  stopped : AttemptID → Option AttemptOutcome
  start : AttemptID → Time
  drain : Bool

/-- A process that just began. -/
def Memory.new : Memory := ⟨.empty, fun _ => none, fun _ => 0, false⟩

/-- The attempt was started, or found running. -/
def Memory.hold (memory : Memory) (spec : Spec) (now : Time) : Memory :=
  { memory with
    running := memory.running.put spec
    start := Function.update memory.start spec.attemptID now }

/-- Drop what is known of an attempt. -/
def Memory.forget (memory : Memory) (id : AttemptID) : Memory :=
  { memory with
    running := memory.running.erase fun spec => spec.attemptID = id
    stopped := Function.update memory.stopped id none
    start := Function.update memory.start id 0 }

/-- The agent's memory and disk beside the books of the control plane and the tape. A spool file is kept
under the attempt it is of. -/
structure World where
  config : Config
  memory : Memory
  spoolDir : Files SpoolFile
  /-- The state directory says that the node is to be left. -/
  marker : Bool
  /-- The events of the reports that the control plane has accepted, for each attempt. -/
  received : AttemptID → List WorkerEvent
  /-- How long the encoding of an event is. -/
  lineBytes : WorkerEvent → Nat
  tape : Nat → Reading
  asked : Nat

/-- What the agent does for others to see: what it says to the control plane, and what it changes. -/
inductive Act
  | beat (held : List AttemptID) (draining : Bool) (response : Service.HeartbeatResult)
  | claim (max : Nat)
  | ack (dispatch : Service.Dispatch)
  | append (id : AttemptID) (event : WorkerEvent) (sync : Sync)
  | report (id : AttemptID) (body : List WorkerEvent) (answer : Answer)
  | compact (id : AttemptID) (events : List WorkerEvent)
  | remove (id : AttemptID)
  /-- The attempt is forgotten, because it is over or because the control plane has let go of it. -/
  | forget (id : AttemptID) (concluded : Bool)

/-- The world with another content of a spool file. -/
def World.write (world : World) (id : AttemptID) (file : SpoolFile) : World :=
  { world with spoolDir := world.spoolDir.edit (.write id file) }

/-- What an act changes. -/
def Act.apply : Act → World → World
  | .beat .., world | .claim _, world | .ack _, world | .append _ _ .unopened, world => world
  | .append id event sync, world =>
      world.write id (((world.spoolDir.find id).getD .empty).append event (world.lineBytes event) sync)
  | .report id body answer, world =>
      if answer.accepted then
        { world with received := Function.update world.received id (world.received id ++ body) }
      else world
  | .compact id events, world => world.write id (.of world.lineBytes (events.map blank))
  | .remove id, world => { world with spoolDir := world.spoolDir.edit (.remove id) }
  | .forget id _, world => { world with memory := world.memory.forget id }

abbrev AgentM (Result : Type) := Program World Act Fault Result

/-- Put a question. -/
def ask {Value : Type} (question : Reading → Value) : AgentM Value :=
  Program.quietly fun world => (question (world.tape world.asked), { world with asked := world.asked + 1 })

/-- Look into memory. -/
def recollect {Value : Type} (view : Memory → Value) : AgentM Value :=
  Program.read fun world => view world.memory

/-- Change what is known. -/
def remember (change : Memory → Memory) : AgentM Unit :=
  Program.quietly fun world => ((), { world with memory := change world.memory })

/-- Do what others see. -/
def perform (act : Act) : AgentM Unit :=
  .access (some act) (fun world => ((), act.apply world)) .done

/-! ### The spool -/

/-- Read a spool file; one that is not there holds nothing. -/
def readSpool (id : AttemptID) : AgentM (Option (List WorkerEvent)) :=
  Program.read fun world => ((world.spoolDir.find id).getD .empty).read

/-- Append an event under the next number, unless it is a second exit. -/
def spool (id : AttemptID) (event : WorkerEvent) : AgentM Unit := do
  match ← readSpool id with
  | none => .fail .spoolUnreadable
  | some prior =>
      if event.kind = some .exit && prior.any (fun one => one.kind = some .exit) then
        pure () -- one terminal event per attempt, ever
      else do
        let now ← ask Reading.now
        let sync ← ask Reading.sync
        perform (.append id
          { event with seq := prior.length + 1, time := event.time.or (some now) } sync)
        if sync = .synced then pure () else .fail .notWritten

/-- Drop an attempt from memory. -/
def forget (id : AttemptID) (concluded : Bool) : AgentM Unit := perform (.forget id concluded)

/-- Keep the numbers of the events and drop their messages. -/
def compactSpool (id : AttemptID) (events : List WorkerEvent) : AgentM Unit := do
  if ← ask Reading.saved then perform (.compact id events) else .fail .notWritten

/-- Nothing is left to report: the spool is deleted, and the attempt is forgotten even where that
fails. -/
def finish (id : AttemptID) (concluded : Bool) : AgentM Unit := do
  if ← ask Reading.saved then perform (.remove id)
  forget id concluded

/-- Report one attempt's spool. -/
def flushFile (id : AttemptID) : AgentM Unit := do
  match ← readSpool id with
  | none => pure ()
  | some [] => pure ()
  | some (first :: rest) =>
      let events := first :: rest
      let answer ← ask Reading.answer
      perform (.report id (batch events) answer)
      match answer.response with
      | .failed => .fail .transport
      | .ok () => if terminal events then finish id true else compactSpool id events
      | .status code =>
          -- the control plane does not know the attempt: nothing to deliver to
          if code = 404 then finish id false else .fail (.status "events" code)

/-- Report every spool, in the order of the file names; the first that fails ends it. -/
def flushSpool : AgentM Unit := do
  let ids ← Program.read fun world =>
    world.spoolDir.paths.insertionSort fun one two => one ++ ".jsonl" ≤ two ++ ".jsonl"
  forM ids flushFile

/-! ### Attempts -/

/-- The attempts the agent holds. -/
def held : AgentM (List AttemptID) := do
  let ids ← recollect fun memory => memory.running.rows.map Spec.attemptID
  let order ← ask Reading.order
  pure (order.visit ids)

/-- Have the runtime stop an attempt, and remember why. -/
def stop (id : AttemptID) (outcome : AttemptOutcome) : AgentM Unit := do
  if (← recollect fun memory => memory.running.find id).isSome then
    if ← ask Reading.stopped then
      remember fun memory => { memory with stopped := Function.update memory.stopped id (some outcome) }

/-- The outcome an order to stop ends an attempt with. -/
def stopOutcome : Service.StopReason → AttemptOutcome
  | .cancel => .cancelled
  | .preempt => .preempted
  | .timeout => .timedOut

/-- Stop an attempt that the control plane has reclaimed, and do not report it. -/
def abandon (id : AttemptID) : AgentM Unit := do
  if ← ask Reading.stopped then forget id false else .fail (.abandon id)

/-- Tell the control plane which attempts are held, and act on its orders. -/
def heartbeat : AgentM Unit := do
  let ids ← held
  let draining ← recollect Memory.drain
  match ← ask Reading.heartbeat with
  | .failed => .fail .transport
  | .status code => .fail (.status "heartbeat" code)
  | .ok response =>
      perform (.beat ids draining response)
      forM response.stop fun order => stop order.1 (stopOutcome order.2)
      forM response.abandon abandon

/-- The log event of a line. -/
def logEvent (line : String) : WorkerEvent where
  seq := 0
  kind := some .log
  time := none
  message := line
  outcome := none
  exitCode := none

/-- An exit event. -/
def exitEvent (outcome : Option AttemptOutcome) (exitCode : Option Int) (reason : String) :
    WorkerEvent where
  seq := 0
  kind := some .exit
  time := none
  message := reason
  outcome := outcome
  exitCode := exitCode

/-- The event of a start. -/
def startedEvent (runtime : String) : WorkerEvent where
  seq := 0
  kind := some .started
  time := none
  message := "started in " ++ runtime
  outcome := none
  exitCode := none

/-- Stop an attempt that ran too long, unless it was asked to stop already. -/
def enforceTimeout (id : AttemptID) (stopReq : Option AttemptOutcome) : AgentM Unit := do
  let spec ← recollect fun memory => memory.running.find id
  let started ← recollect fun memory => memory.start id
  let maxRuntime := (spec.map Spec.maxRuntime).getD 0
  if 0 < maxRuntime && stopReq.isNone then
    let now ← ask Reading.now
    if maxRuntime < now - started then stop id .timedOut

/-- Spool the log lines of an attempt, and its exit once it is done. -/
def spoolStatus (id : AttemptID) (stopReq : Option AttemptOutcome) (status : Status) : AgentM Unit := do
  forM status.logs fun line => spool id (logEvent line)
  if status.done then
    -- an order to stop is why it ended, unless it ended well all the same
    let outcome :=
      if stopReq.isSome && status.outcome ≠ some .succeeded then stopReq else status.outcome
    if status.artifact then
      if !(← ask Reading.uploaded) then .fail .upload
    spool id (exitEvent outcome status.exitCode status.reason)

/-- Look at one attempt. -/
def pollAttempt (id : AttemptID) : AgentM Unit := do
  let stopReq ← recollect fun memory => memory.stopped id
  enforceTimeout id stopReq
  match ← ask Reading.status with
  | none => .fail .runtime
  | some status => spoolStatus id stopReq status

/-- Look at every attempt; the first that fails ends it. -/
def poll : AgentM Unit := do
  let ids ← held
  forM ids pollAttempt

/-- Check a dispatch, acknowledge it, and start it or record that it was cancelled. -/
def accept (dispatch : Service.Dispatch) : AgentM Unit := do
  let config ← Program.read World.config
  let digest := config.specDigest dispatch.image dispatch.command dispatch.gpus dispatch.maxRuntimeS
  if digest ≠ dispatch.specDigest || !config.verify dispatch.attempt dispatch.worker
      dispatch.leaseExpires dispatch.specDigest dispatch.mac then
    .fail .leaseInvalid
  else do
    perform (.ack dispatch)
    match ← ask Reading.ack with
    | .failed => .fail .transport
    | .status code => .fail (.status "ack" code)
    | .ok .alreadyAcknowledged => pure () -- redelivered; it is running already
    | .ok .cancel => spool dispatch.attempt (exitEvent (some .cancelled) none "cancelled before start")
    | .ok .run =>
        let now ← ask Reading.now
        remember fun memory => memory.hold
          { attemptID := dispatch.attempt, jobID := dispatch.job, image := dispatch.image
            command := dispatch.command, gpus := dispatch.gpus
            maxRuntime := dispatch.maxRuntimeS * second } now
        match ← ask Reading.start with
        | some error =>
            spool dispatch.attempt (exitEvent (some .failed) (some 125) ("runtime start: " ++ error))
        | none => spool dispatch.attempt (startedEvent config.runtime)

/-- Claim as many dispatches as there is room for; one that is refused is passed over. -/
def claim : AgentM Unit := do
  let count ← recollect fun memory => memory.running.rows.length
  let config ← Program.read World.config
  if config.maxConcurrent ≤ count then pure ()
  else do
    perform (.claim (min (config.maxConcurrent - count) 16))
    match ← ask Reading.claim with
    | .failed => .fail .transport
    | .status code => .fail (.status "claim" code)
    | .ok dispatches => forM dispatches fun dispatch => do
        let _ ← (accept dispatch).attempt

/-- Whether the node is to be left. A notice is put on disk before it is acted on. -/
def interruption : AgentM Bool := do
  if !(← ask Reading.looked) then .fail .marker
  else if ← Program.read World.marker then pure true
  else if ← ask Reading.interrupted then
    if ← ask Reading.saved then
      Program.quietly fun world => ((), { world with marker := true })
      pure true
    else .fail .marker
  else pure false

/-- One iteration of the agent. -/
def step : AgentM Unit := do
  let draining ← ask Reading.draining
  remember fun memory => { memory with drain := draining }
  if ← interruption then
    remember fun memory => { memory with drain := true }
    let ids ← held
    forM ids fun id => stop id .preempted
  heartbeat
  poll
  flushSpool
  if ← recollect Memory.drain then pure () else claim

/-- The start of a process: what the runtime still holds is taken up, and the spools are reported. -/
def recover : AgentM Unit := do
  remember fun _ => .new
  match ← ask Reading.listed with
  | none => .fail .runtime
  | some ids =>
      forM ids fun id => do
        let now ← ask Reading.now
        remember fun memory => memory.hold { attemptID := id } now
      flushSpool

/-- What a process of the agent does next. -/
inductive Turn
  | recover | step
  deriving DecidableEq

def Turn.program : Turn → AgentM Unit
  | .recover => Agent.recover
  | .step => Agent.step

/-- The programs of a run: a turn that is stopped before its end is a crash, after which a process
recovers. -/
def programs (turns : List (Turn × Nat)) : List (AgentM Unit × Nat) :=
  turns.map fun turn => (turn.1.program, turn.2)

end GpuBroker.Agent
