/-
This file is the fake backend: machines that do not exist, simulated against a
clock, whose commands end as a script says.

Its machines and its count of launches live in a file, when it has one, and that
file is what a process that has just started finds; what a test has scripted
lives in the object and is gone with it. A checkpoint store is whatever answers
its two calls. Timestamps are taken as exact numbers of seconds, and what no
operation reads (the tags of a machine, its owner, its launch time) is left out.
-/
import GpuBroker.Library.Course
import GpuBroker.Broker.Runs

namespace GpuBroker.Broker

open Library

variable {δ : Type}

/-- What a scripted job is going to do. -/
structure FakePlan where
  runHours : Option ℚ := none
  outcome : BackendStatus := .completed
  exitCode : Int := 0
  launchError : Option String := none
  totalSteps : Int := 0
  checkpointEvery : Int := 0

/-- A simulated machine. -/
structure FakeResource where
  handle : String
  jobId : JobId
  gpuType : String
  readyAt : ℚ
  finishAt : ℚ
  outcome : BackendStatus
  exitCode : Int
  logs : List Line
  terminated : Bool
  terminateReason : Option String
  loggedStart : Bool
  totalSteps : Int
  checkpointEvery : Int
  startStep : Int
  startValue : Int
  lastSavedStep : Int

/-- A fake backend while its process lives: its machines, its count of launches, what was scripted, and how
often its clock was read. -/
structure Fake where
  resources : Table FakeResource FakeResource.handle
  counter : Nat
  plans : List (JobId × FakePlan)
  utilization : List (JobId × ℚ)
  asked : Nat

/-- The capacity behind a broker: a fake, and what other capacity there is. -/
structure Simulation (δ : Type) where
  fake : Fake
  rest : δ

/-- A method of the fake. -/
abbrev Simulated (δ α : Type) := Program (Simulation δ) Unit String α

/-- A checkpoint store, as the fake calls it: the steps done and the sum that the latest checkpoint of a
job says, if there is one that can be read, and the saving of one. -/
structure FakeCheckpoints (δ : Type) where
  restore : JobId → δ → Except String (Option (Int × Int)) × δ
  put : JobId → Int → Int → Time → δ → Except String Unit × δ

/-- What a fake backend is constructed with; the clock by its readings. -/
structure FakeBackend (δ : Type) where
  name : String
  clock : Nat → Time
  tier : String
  currency : Currency
  capacity : List (String × Int)
  startupSeconds : ℚ
  statePath : Option String
  checkpoints : Option (FakeCheckpoints δ)

/-! ### The clock and the file -/

/-- A moment in seconds. -/
def timestamp (moment : Time) : ℚ := moment / 1000000

namespace Fake

/-- The fake with a machine as it is now. -/
def put (fake : Fake) (resource : FakeResource) : Fake :=
  { fake with resources := fake.resources.put resource }

/-- The fake after a reading of its clock. -/
def read (fake : Fake) : Fake := { fake with asked := fake.asked + 1 }

/-- What a process finds that has just started: what the file holds, and nothing scripted. -/
def restarted (statePath : Option String) (fake : Fake) : Fake :=
  if statePath.isSome then { fake with plans := [], utilization := [] }
  else { fake with resources := .empty, counter := 0, plans := [], utilization := [] }

end Fake

/-- A reading of the clock. -/
def FakeBackend.moment (backend : FakeBackend δ) : Simulated δ Time :=
  Program.quietly fun simulation =>
    (backend.clock simulation.fake.asked, { simulation with fake := simulation.fake.read })

/-- The machine of a handle. -/
def Simulated.find (handle : String) : Simulated δ (Option FakeResource) :=
  Program.read fun simulation => simulation.fake.resources.find handle

/-- Change a machine and save the file. -/
def Simulated.keep (resource : FakeResource) : Simulated δ Unit :=
  Program.quietly fun simulation => ((), { simulation with fake := simulation.fake.put resource })

/-- A call of the checkpoint store. -/
def Simulated.store {α : Type} (call : δ → Except String α × δ) : Simulated δ α := do
  let answer : Except String α ← Program.quietly fun simulation =>
    ((call simulation.rest).1, { simulation with rest := (call simulation.rest).2 })
  match answer with
  | .ok value => pure value
  | .error detail => .fail detail

/-! ### Simulated work -/

namespace FakeResource

/-- A number of steps cut to a whole one, toward zero. -/
def whole (steps : ℚ) : Int := if 0 ≤ steps then ⌊steps⌋ else ⌈steps⌉

/-- How far an attempt has got by a moment. -/
def stepsDone (resource : FakeResource) (now : ℚ) : Int :=
  if resource.totalSteps ≤ 0 then 0
  else
    let span := max (resource.finishAt - resource.readyAt) (1 / 1000000000)
    let fraction := min (max ((now - resource.readyAt) / span) 0) 1
    resource.startStep + whole (fraction * (resource.totalSteps - resource.startStep))

/-- The sum after so many steps, on top of what the checkpoint carried. -/
def valueAt (resource : FakeResource) (step : Int) : Int :=
  resource.startValue +
    ((List.range (step - resource.startStep).toNat).map fun done => resource.startStep + done).sum

/-- The last line of a machine's output. -/
def closingLine (resource : FakeResource) : String :=
  let job := String.ofList (resource.jobId.toList.take 8)
  let outcome := resource.outcome.text.toLower
  let code := resource.exitCode
  s!"{job}: {outcome} (exit {code})"

end FakeResource

namespace FakeBackend

variable (backend : FakeBackend δ)

/-- Save a checkpoint, unless one as late was saved. -/
def save (resource : FakeResource) (step : Int) : Simulated δ FakeResource :=
  match backend.checkpoints with
  | none => pure resource
  | some checkpoints =>
      if step ≤ resource.lastSavedStep then pure resource
      else do
        let now ← backend.moment
        Simulated.store (checkpoints.put resource.jobId step (resource.valueAt step) now)
        let resource := { resource with lastSavedStep := step }
        Simulated.keep resource
        pure resource

/-- Save a checkpoint at the last boundary the attempt has passed. -/
def maybeCheckpoint (resource : FakeResource) : Simulated δ FakeResource :=
  if resource.checkpointEvery ≤ 0 || resource.totalSteps ≤ 0 then pure resource
  else do
    let now ← backend.moment
    let step := resource.stepsDone (timestamp now)
    let boundary := step / resource.checkpointEvery * resource.checkpointEvery
    if resource.lastSavedStep < boundary && resource.startStep < boundary then backend.save resource boundary
    else pure resource

/-- Where an attempt picks up. -/
def restore (job : Job) : Simulated δ (Int × Int) :=
  match backend.checkpoints with
  | none => pure (0, 0)
  | some checkpoints => do
      let state ← Simulated.store (checkpoints.restore job.jobId)
      pure (state.getD (0, 0))

/-! ### The interface of a backend -/

def supports (gpuType : String) : Bool := (backend.capacity.lookup gpuType).isSome

/-- How many machines of a kind are at work. -/
def inUse (gpuType : String) (resources : List FakeResource) : Simulated δ Int :=
  resources.foldlM
    (fun count resource =>
      if resource.gpuType ≠ gpuType || resource.terminated then pure count
      else do
        let now ← backend.moment
        pure (if resource.finishAt ≤ timestamp now then count else count + 1))
    0

def freeSlots (gpuType : String) : Simulated δ Int :=
  match backend.capacity.lookup gpuType with
  | none => pure 0
  | some capacity => do
      let resources ← Program.read fun simulation => simulation.fake.resources.rows
      let used ← backend.inUse gpuType resources
      pure (max 0 (capacity - used))

/-- A number written with four digits at least. -/
def padded (number : Nat) : String :=
  let digits := Nat.toDigits 10 number
  String.ofList (List.replicate (4 - digits.length) '0' ++ digits)

/-- Start a machine whose command does what the script says. -/
def launch (job : Job) : Simulated δ Allocation := do
  let name := backend.name
  let gpuType := job.gpuType
  if !backend.supports gpuType then .fail s!"{name} has no {gpuType} capacity configured"
  else do
    let free ← backend.freeSlots gpuType
    if free ≤ 0 then .fail s!"{name} has no free {gpuType} slots"
    else do
      let plan : FakePlan ← Program.read fun simulation => (simulation.fake.plans.lookup job.jobId).getD {}
      match truthy plan.launchError with
      | some error => .fail error
      | none => do
          let (startStep, startValue) ← backend.restore job
          let now ← backend.moment
          let number ← Program.read fun simulation => simulation.fake.counter + 1
          let count := padded number
          let handle := s!"{name}-{count}"
          let readyAt := timestamp now + backend.startupSeconds
          let resource : FakeResource :=
            { handle
              jobId := job.jobId
              gpuType
              readyAt
              finishAt := readyAt + plan.runHours.getD job.requestedHours * 3600
              outcome := plan.outcome
              exitCode := plan.exitCode
              logs := [("broker", s!"launched {handle} ({gpuType})")]
              terminated := false
              terminateReason := none
              loggedStart := false
              totalSteps := plan.totalSteps
              checkpointEvery := plan.checkpointEvery
              startStep
              startValue
              lastSavedStep := -1 }
          Program.quietly fun simulation =>
            ((), { simulation with fake := { simulation.fake.put resource with counter := number } })
          pure ⟨handle, gpuType⟩

/-- What a machine is doing, by the clock. -/
def poll (handle : String) : Simulated δ Observation := do
  match ← Simulated.find handle with
  | none => pure ⟨.gone, none, some "no such handle"⟩
  | some resource => do
      let now ← backend.moment
      if resource.terminated then
        pure ⟨.gone, none, some ((truthy resource.terminateReason).getD "terminated")⟩
      else if timestamp now < resource.readyAt then pure ⟨.pending, none, some "booting"⟩
      else if timestamp now < resource.finishAt then do
        let resource ← backend.maybeCheckpoint resource
        if resource.loggedStart then pure ⟨.running, none, none⟩
        else do
          let job := String.ofList (resource.jobId.toList.take 8)
          Simulated.keep
            { resource with
              logs := resource.logs ++ [("stdout", s!"{job}: training started")], loggedStart := true }
          pure ⟨.running, none, none⟩
      else do
        let status := resource.outcome.text
        let concluded : Observation := ⟨resource.outcome, some resource.exitCode, some s!"finished as {status}"⟩
        if 0 < resource.totalSteps && resource.outcome = .completed then do
          -- the last step, so that the sum of a completed job is the full one
          let _ ← backend.save resource resource.totalSteps
          pure concluded
        else pure concluded

/-- The output of a machine from an index on; the closing line is added once, when its command is over. -/
def fetchLogs (handle : String) (after : Nat) : Simulated δ (List Line) := do
  match ← Simulated.find handle with
  | none => pure []
  | some resource => do
      let now ← backend.moment
      if resource.finishAt ≤ timestamp now && !resource.terminated &&
          resource.logs.getLast?.all fun line => line.2 ≠ resource.closingLine then do
        let closed := { resource with logs := resource.logs ++ [("stdout", resource.closingLine)] }
        Simulated.keep closed
        pure (closed.logs.drop after)
      else pure (resource.logs.drop after)

/-- Stop a machine; one that is not there is stopped. -/
def terminate (handle reason : String) : Simulated δ Unit := do
  match ← Simulated.find handle with
  | none => pure ()
  | some resource =>
      Simulated.keep
        { resource with
          terminated := true
          terminateReason := some reason
          logs := resource.logs ++ [("broker", s!"terminated: {reason}")] }

/-- Whatever a test said a job is doing; busy, where it said nothing. -/
def sampleUtilization (handle : String) : Simulated δ (List Reading) := do
  match ← Simulated.find handle with
  | none => pure []
  | some resource => do
      let now ← backend.moment
      if timestamp now < resource.readyAt then pure []
      else do
        let percent ← Program.read fun simulation =>
          (simulation.fake.utilization.lookup resource.jobId).getD 85
        let takenAt ← backend.moment
        pure [⟨takenAt, percent, 8192⟩]

/-- The fake as the broker calls it. Its command begins the moment a machine is ready, so that a start has
nothing to do. -/
def served : Backend (Simulation δ) where
  name := backend.name
  currency := backend.currency
  tier := some backend.tier
  supports := backend.supports
  freeSlots := fun gpuType => (backend.freeSlots gpuType).whole
  launch := fun job => (backend.launch job).whole
  start := fun _ _ simulation => (.ok (), simulation)
  poll := fun handle => (backend.poll handle).whole
  fetchLogs := fun handle after => (backend.fetchLogs handle after).whole
  sampleUtilization := fun handle => (backend.sampleUtilization handle).whole
  terminate := fun handle reason => (FakeBackend.terminate handle reason).whole

end FakeBackend

/-! ### What calls keep of a machine -/

/-- A machine without what its calls write down: its output and the last step it saved. -/
def FakeResource.essence (resource : FakeResource) : FakeResource :=
  { resource with logs := [], loggedStart := false, lastSavedStep := 0 }

namespace Simulation

/-- What there is of a machine that its calls do not write down. -/
def machine (handle : String) (simulation : Simulation δ) : Option FakeResource :=
  (simulation.fake.resources.find handle).map FakeResource.essence

/-- A call spares a machine: it goes on as it was, and the clock goes on. -/
structure Spares (handle : String) (before after : Simulation δ) : Prop where
  machine : after.machine handle = before.machine handle
  asked : before.fake.asked ≤ after.fake.asked

theorem Spares.refl (handle : String) (simulation : Simulation δ) : Spares handle simulation simulation :=
  ⟨rfl, le_rfl⟩

theorem Spares.trans {handle : String} {one two three : Simulation δ} (first : Spares handle one two)
    (second : Spares handle two three) : Spares handle one three :=
  ⟨second.machine.trans first.machine, first.asked.trans second.asked⟩

/-- The command of a machine has ended by every reading of the clock from now on, and it completed. -/
def Completes (backend : FakeBackend δ) (handle : String) (simulation : Simulation δ) : Prop :=
  ∃ resource, simulation.machine handle = some resource ∧ resource.terminated = false ∧
    resource.outcome = .completed ∧ ∀ reading, simulation.fake.asked ≤ reading →
      resource.readyAt ≤ timestamp (backend.clock reading) ∧
        resource.finishAt ≤ timestamp (backend.clock reading)

/-- There is no machine of a handle, or it was stopped. -/
def Gone (handle : String) (simulation : Simulation δ) : Prop :=
  ∀ resource ∈ simulation.machine handle, resource.terminated = true

theorem Spares.completes {backend : FakeBackend δ} {handle : String} {before after : Simulation δ}
    (spares : Spares handle before after) (completes : Completes backend handle before) :
    Completes backend handle after := by
  obtain ⟨resource, found, up, outcome, concluded⟩ := completes
  exact ⟨resource, spares.machine.trans found, up, outcome, fun reading later =>
    concluded reading (spares.asked.trans later)⟩

theorem Spares.gone {handle : String} {before after : Simulation δ} (spares : Spares handle before after)
    (gone : before.Gone handle) : after.Gone handle := by
  intro resource found
  rw [spares.machine] at found
  exact gone resource found

/-- A copy of the machine of a handle, up to what its calls write down. -/
def Copied (handle : String) (resource : FakeResource) (simulation : Simulation δ) : Prop :=
  resource.handle = handle → simulation.machine handle = some resource.essence

theorem Copied.spared {handle : String} {resource : FakeResource} {before after : Simulation δ}
    (copied : Copied handle resource before) (spares : Spares handle before after) :
    Copied handle resource after :=
  fun mine => spares.machine.trans (copied mine)

/-- A change of what calls write down spares every machine. -/
theorem Copied.spares {handle : String} {resource changed : FakeResource} {simulation : Simulation δ}
    (copied : Copied handle resource simulation) (same : changed.essence = resource.essence) :
    Spares handle simulation { simulation with fake := simulation.fake.put changed } := by
  refine ⟨?_, le_rfl⟩
  have its : changed.handle = resource.handle := by
    show changed.essence.handle = resource.essence.handle
    rw [same]
  show ((simulation.fake.resources.put changed).find handle).map FakeResource.essence = _
  rw [Table.find_put]
  split
  · next mine =>
    rw [copied (its.symm.trans mine.symm), Option.map_some, same]
  · rfl

end Simulation

/-- A method spares a machine, and comes to a result of a kind. -/
abbrev Simulated.Spares {α : Type} (handle : String) (method : Simulated δ α) (post : α → Prop)
    (simulation : Simulation δ) : Prop :=
  method.Safe (Contract.lone fun _ => Simulation.Spares handle) (fun value _ => post value) simulation

section Sparing

variable {α β : Type} {handle other : String} {post : β → Prop} {simulation : Simulation δ}
  {backend : FakeBackend δ} {resource : FakeResource}

theorem spares_pure {value : β} (holds : post value) :
    Simulated.Spares handle (pure value : Simulated δ β) post simulation :=
  fun _ _ _ => holds

theorem spares_moment {rest : Time → Simulated δ β}
    (resume : Simulated.Spares handle (rest (backend.clock simulation.fake.asked)) post
      { simulation with fake := simulation.fake.read }) :
    Simulated.Spares handle (backend.moment >>= rest) post simulation := by
  rintro current rfl _ _
  exact ⟨trivial, ⟨rfl, Nat.le_succ _⟩, resume⟩

theorem spares_read {view : Simulation δ → α} {rest : α → Simulated δ β}
    (resume : Simulated.Spares handle (rest (view simulation)) post simulation) :
    Simulated.Spares handle (Program.read view >>= rest) post simulation := by
  rintro current rfl _ _
  exact ⟨trivial, .refl handle current, resume⟩

theorem spares_keep {changed : FakeResource} {rest : Unit → Simulated δ β}
    (copied : Simulation.Copied handle resource simulation) (same : changed.essence = resource.essence)
    (resume : Simulated.Spares handle (rest ()) post
      { simulation with fake := simulation.fake.put changed }) :
    Simulated.Spares handle (Simulated.keep changed >>= rest) post simulation := by
  rintro current rfl _ _
  exact ⟨trivial, copied.spares same, resume⟩

theorem spares_store {call : δ → Except String α × δ} {rest : α → Simulated δ β}
    (resume : ∀ value aside, Simulated.Spares handle (rest value) post { simulation with rest := aside }) :
    Simulated.Spares handle (Simulated.store call >>= rest) post simulation := by
  rintro current rfl _ _
  refine ⟨trivial, ⟨rfl, le_rfl⟩, ?_⟩
  show ((match (call current.rest).1 with
    | .ok value => pure value
    | .error detail => .fail detail : Simulated δ α) >>= rest).Safe _ _ _
  split
  · next value came => exact resume value _
  · exact fun _ _ _ => trivial

/-- The rule of a method that begins with a machine. -/
theorem spares_find {rest : Option FakeResource → Simulated δ β}
    (missing : simulation.fake.resources.find other = none →
      Simulated.Spares handle (rest none) post simulation)
    (there : ∀ resource, simulation.fake.resources.find other = some resource → resource.handle = other →
      Simulation.Copied handle resource simulation →
        Simulated.Spares handle (rest (some resource)) post simulation) :
    Simulated.Spares handle (Simulated.find other >>= rest) post simulation := by
  refine spares_read ?_
  cases found : simulation.fake.resources.find other with
  | none => exact missing found
  | some resource =>
      refine there resource found (Table.find_key found) fun mine => ?_
      unfold Simulation.machine
      rw [← mine, Table.find_key found, found]
      rfl

theorem spares_save {step : Int} {rest : FakeResource → Simulated δ β}
    (copied : Simulation.Copied handle resource simulation)
    (resume : ∀ saved after, saved.essence = resource.essence →
      Simulation.Spares handle simulation after → Simulated.Spares handle (rest saved) post after) :
    Simulated.Spares handle (backend.save resource step >>= rest) post simulation := by
  unfold FakeBackend.save
  split
  · exact resume resource simulation rfl (.refl handle simulation)
  · next checkpoints configured =>
    split
    · exact resume resource simulation rfl (.refl handle simulation)
    · rw [bind_assoc]
      refine spares_moment ?_
      rw [bind_assoc]
      refine spares_store fun _ aside => ?_
      rw [bind_assoc]
      have still : Simulation.Spares handle simulation ⟨simulation.fake.read, aside⟩ :=
        ⟨rfl, Nat.le_succ _⟩
      have here := copied.spared still
      exact spares_keep here rfl (resume _ _ rfl (still.trans (here.spares rfl)))

theorem spares_poll : Simulated.Spares handle (backend.poll other) (fun _ => True) simulation := by
  refine spares_find (fun _ => spares_pure trivial) fun resource found mine copied => ?_
  refine spares_moment ?_
  have here : Simulation.Copied handle resource { simulation with fake := simulation.fake.read } := copied
  split
  · exact spares_pure trivial
  · split
    · exact spares_pure trivial
    · split
      · have goesOn : ∀ (saved : FakeResource) (after : Simulation δ), saved.essence = resource.essence →
            Simulation.Spares handle { simulation with fake := simulation.fake.read } after →
            Simulated.Spares handle (if saved.loggedStart then pure ⟨.running, none, none⟩ else do
              let job := String.ofList (saved.jobId.toList.take 8)
              Simulated.keep
                { saved with
                  logs := saved.logs ++ [("stdout", s!"{job}: training started")], loggedStart := true }
              pure (⟨.running, none, none⟩ : Observation)) (fun _ => True) after := by
          intro saved after same spared
          split
          · exact spares_pure trivial
          · exact spares_keep (here.spared spared) same (spares_pure trivial)
        unfold FakeBackend.maybeCheckpoint
        split
        · exact goesOn resource _ rfl (.refl handle _)
        · rw [bind_assoc]
          refine spares_moment ?_
          simp only
          split
          · have again : Simulation.Copied handle resource
                { simulation with fake := simulation.fake.read.read } := copied
            exact spares_save again fun saved after same spared => goesOn saved after same
              ⟨spared.machine, (Nat.le_succ _).trans spared.asked⟩
          · exact goesOn resource _ rfl ⟨rfl, Nat.le_succ _⟩
      · simp only
        split
        · exact spares_save here fun _ _ _ _ => spares_pure trivial
        · exact spares_pure trivial

theorem spares_fetchLogs {after : Nat} :
    Simulated.Spares handle (backend.fetchLogs other after) (fun _ => True) simulation := by
  refine spares_find (fun _ => spares_pure trivial) fun resource found mine copied => ?_
  refine spares_moment ?_
  have here : Simulation.Copied handle resource { simulation with fake := simulation.fake.read } := copied
  split
  · exact spares_keep here rfl (spares_pure trivial)
  · exact spares_pure trivial

theorem spares_sampleUtilization :
    Simulated.Spares handle (backend.sampleUtilization other) (fun _ => True) simulation := by
  refine spares_find (fun _ => spares_pure trivial) fun resource found mine copied => ?_
  refine spares_moment ?_
  split
  · exact spares_pure trivial
  · exact spares_read (spares_moment (spares_pure trivial))

/-- A stop of another machine. -/
theorem spares_terminate {reason : String} (differs : other ≠ handle) :
    Simulated.Spares handle (FakeBackend.terminate other reason) (fun _ => True) simulation := by
  refine spares_find (fun _ => spares_pure trivial) fun resource found mine copied => ?_
  rintro current rfl _ _
  refine ⟨trivial, ⟨?_, le_rfl⟩, fun _ _ _ => trivial⟩
  show ((current.fake.resources.put _).find handle).map FakeResource.essence = _
  rw [Table.find_put, if_neg]
  · rfl
  · exact fun same => differs (mine.symm.trans same.symm)

/-- A poll of a machine whose command completed says so. -/
theorem spares_poll_completes (completes : Simulation.Completes backend handle simulation) :
    Simulated.Spares handle (backend.poll handle) (fun observation => observation.status = .completed)
      simulation := by
  obtain ⟨essence, has, up, outcome, concluded⟩ := completes
  obtain ⟨ready, finished⟩ := concluded _ le_rfl
  refine spares_find (fun missing => ?_) fun resource found mine copied => ?_
  · unfold Simulation.machine at has
    rw [missing] at has
    cases has
  · cases has.symm.trans (copied mine)
    refine spares_moment ?_
    have here : Simulation.Copied handle resource { simulation with fake := simulation.fake.read } := copied
    have running : ¬ resource.terminated = true := by
      rw [show resource.terminated = false from up]
      decide
    have booted : ¬ timestamp (backend.clock simulation.fake.asked) < resource.readyAt := not_lt.mpr ready
    have ended : ¬ timestamp (backend.clock simulation.fake.asked) < resource.finishAt :=
      not_lt.mpr finished
    rw [if_neg running, if_neg booted, if_neg ended]
    simp only
    split
    · exact spares_save here fun _ _ _ _ => spares_pure outcome
    · exact spares_pure outcome

/-- A poll of a machine that is gone says so. -/
theorem spares_poll_gone (gone : simulation.Gone handle) :
    Simulated.Spares handle (backend.poll handle) (fun observation => observation.status = .gone)
      simulation := by
  refine spares_find (fun _ => spares_pure rfl) fun resource found mine copied => ?_
  refine spares_moment ?_
  have stopped : resource.terminated = true := gone resource.essence (copied mine)
  rw [if_pos stopped]
  exact spares_pure rfl

/-- A stop of a machine raises nothing, and the machine is gone. -/
theorem terminate_gone (handle reason : String) (simulation : Simulation δ) :
    ∃ after, (FakeBackend.terminate handle reason).whole simulation = (.ok (), after) ∧
      after.Gone handle := by
  have stops : ∀ answer, simulation.fake.resources.find handle = answer →
      (FakeBackend.terminate handle reason).whole simulation = Program.whole (match answer with
        | none => pure ()
        | some resource => Simulated.keep
            { resource with
              terminated := true
              terminateReason := some reason
              logs := resource.logs ++ [("broker", s!"terminated: {reason}")] }) simulation := by
    rintro answer rfl
    rfl
  cases found : simulation.fake.resources.find handle with
  | none =>
      refine ⟨simulation, stops none found, fun resource has => ?_⟩
      unfold Simulation.machine at has
      rw [found] at has
      cases has
  | some resource =>
      refine ⟨_, stops (some resource) found, fun essence has => ?_⟩
      have has : ((simulation.fake.resources.put _).find handle).map FakeResource.essence = some essence := has
      rw [Table.find_put, if_pos (Table.find_key found).symm] at has
      cases has
      rfl

/-- What a method leaves that spares a machine. -/
theorem spares_whole {method : Simulated δ β} (safe : Simulated.Spares handle method post simulation) :
    Simulation.Spares handle simulation (method.whole simulation).2 ∧
      ∀ value, (method.whole simulation).1 = .ok value → post value :=
  (safe.passing (Simulation.Spares.refl handle) Simulation.Spares.trans).2

end Sparing

/-- A call of other capacity. -/
def Simulation.aside {α : Type} (call : δ → α × δ) (simulation : Simulation δ) : α × Simulation δ :=
  ((call simulation.rest).1, { simulation with rest := (call simulation.rest).2 })

/-- A backend of other capacity, beside the fake. -/
def Backend.offstage (backend : Backend δ) : Backend (Simulation δ) where
  name := backend.name
  currency := backend.currency
  tier := backend.tier
  supports := backend.supports
  freeSlots := fun gpuType => Simulation.aside (backend.freeSlots gpuType)
  launch := fun job => Simulation.aside (backend.launch job)
  start := fun handle job => Simulation.aside (backend.start handle job)
  poll := fun handle => Simulation.aside (backend.poll handle)
  fetchLogs := fun handle after => Simulation.aside (backend.fetchLogs handle after)
  sampleUtilization := fun handle => Simulation.aside (backend.sampleUtilization handle)
  terminate := fun handle reason => Simulation.aside (backend.terminate handle reason)

/-- What a broker with a fake is set up with; backends have names of their own. -/
structure Rehearsal (δ : Type) where
  fake : FakeBackend δ
  ahead : List (Backend δ)
  behind : List (Backend δ)
  latest : Option (JobId → δ → Except String (Option (Int × String)) × δ)
  score : Db → Time → Job → ℚ
  evidence : List Sample → String
  text : Refusal → String
  named : fake.name ≠ ""
  distinct : ∀ other ∈ ahead ++ behind, other.name ≠ fake.name

namespace Rehearsal

/-- The site of the broker. -/
def site (rehearsal : Rehearsal δ) : Site (Simulation δ) where
  backends := rehearsal.ahead.map Backend.offstage ++
    rehearsal.fake.served :: rehearsal.behind.map Backend.offstage
  latest := rehearsal.latest.map fun latest job => Simulation.aside (latest job)
  score := rehearsal.score
  evidence := rehearsal.evidence

/-- The desk of the broker. -/
def desk (rehearsal : Rehearsal δ) : Desk (Simulation δ) := ⟨rehearsal.site, rehearsal.text⟩

/-- The world as a process finds it that has just started, with other capacity as it is by then. -/
def restarted (rehearsal : Rehearsal δ) (rest : δ) (world : World (Simulation δ)) :
    World (Simulation δ) :=
  { world with cloud := ⟨world.cloud.fake.restarted rehearsal.fake.statePath, rest⟩ }

/-- What a pass leaves. -/
def passed (rehearsal : Rehearsal δ) (world : World (Simulation δ)) : World (Simulation δ) :=
  ((tick rehearsal.site).whole world).2

/-- A pass from a world comes to a report. -/
def Reports (rehearsal : Rehearsal δ) (world : World (Simulation δ)) : Prop :=
  ∃ report, ((tick rehearsal.site).whole world).1 = .ok report

end Rehearsal

end GpuBroker.Broker
