/-
This file is why an attempt ended: which outcome its exit event carries when the
agent asked the runtime to stop it.

A poll remembers why the attempt was to be stopped before it enforces the local
timeout, so an attempt that it stops itself is reported with whatever the runtime
says right after that. Both runtimes are watched along with the programs of the
agent, which read from their tape what the runtime answers.
-/
import GpuBroker.Agent.Delivery
import GpuBroker.Agent.Kube
import GpuBroker.Agent.Sim

namespace GpuBroker.Agent

open Library ControlPlane

/-! ### What a program does -/

/-- Every act of a program is one of some kind, wherever it starts. -/
def Acts {Result : Type} (kind : Act → Prop) (program : AgentM Result) : Prop :=
  ∀ world, ∀ entry ∈ program.wholeTrace world, kind entry.1

/-- What a program remembers of the attempts it leaves alone. -/
def Remembers {Result : Type} (program : AgentM Result) : Prop :=
  ∀ world, (program.whole world).2.memory = world.memory

section

variable {Value Result Item : Type} {kind : Act → Prop}

/-- An act of one program after another is of the first, or of the second where the first leaves off. -/
theorem mem_wholeTrace_bind {first : AgentM Value} {rest : Value → AgentM Result} {world : World} {entry : Act × World}
    (member : entry ∈ (first >>= rest).wholeTrace world) :
    entry ∈ first.wholeTrace world ∨
      ∃ value next, first.whole world = (.ok value, next) ∧ entry ∈ (rest value).wholeTrace next := by
  induction first generalizing world with
  | done value => exact Or.inr ⟨value, world, rfl, member⟩
  | fail error => exact absurd member List.not_mem_nil
  | access label action next inductionHypothesis =>
      rcases List.mem_append.mp member with now | later
      · exact Or.inl (List.mem_append_left _ now)
      · exact (inductionHypothesis _ later).imp_left (List.mem_append_right _)

theorem Acts.bind {first : AgentM Value} {rest : Value → AgentM Result} (begins : Acts kind first)
    (resumes : ∀ value, Acts kind (rest value)) : Acts kind (first >>= rest) := by
  intro world entry member
  rcases mem_wholeTrace_bind member with now | ⟨value, next, -, later⟩
  · exact begins world entry now
  · exact resumes value next entry later

theorem acts_pure (result : Result) : Acts kind (pure result : AgentM Result) :=
  fun _ _ member => absurd member List.not_mem_nil

theorem acts_fail (fault : Fault) : Acts kind (.fail fault : AgentM Result) :=
  fun _ _ member => absurd member List.not_mem_nil

theorem acts_quietly (action : World → Value × World) : Acts kind (Program.quietly action : AgentM Value) :=
  fun _ _ member => absurd member List.not_mem_nil

theorem acts_forM {items : List Item} {body : Item → AgentM Unit} (each : ∀ item ∈ items, Acts kind (body item)) :
    Acts kind (forM items body : AgentM Unit) := by
  induction items with
  | nil => exact acts_pure ()
  | cons item items inductionHypothesis =>
      rw [List.forM_cons]
      exact (each item List.mem_cons_self).bind fun _ =>
        inductionHypothesis fun other member => each other (List.mem_cons_of_mem item member)

theorem Remembers.bind {first : AgentM Value} {rest : Value → AgentM Result} (begins : Remembers first)
    (resumes : ∀ value, Remembers (rest value)) : Remembers (first >>= rest) := by
  intro world
  rw [Program.whole_bind]
  have kept := begins world
  split
  · next value next came => exact (resumes value next).trans (by rw [came] at kept; exact kept)
  · next error next came => rw [came] at kept; exact kept

theorem remembers_pure (result : Result) : Remembers (pure result : AgentM Result) := fun _ => rfl

theorem remembers_fail (fault : Fault) : Remembers (.fail fault : AgentM Result) := fun _ => rfl

theorem remembers_ask (question : Reading → Value) : Remembers (ask question) := fun _ => rfl

theorem remembers_forM {items : List Item} {body : Item → AgentM Unit} (each : ∀ item ∈ items, Remembers (body item)) :
    Remembers (forM items body : AgentM Unit) := by
  induction items with
  | nil => exact remembers_pure ()
  | cons item items inductionHypothesis =>
      rw [List.forM_cons]
      exact (each item List.mem_cons_self).bind fun _ =>
        inductionHypothesis fun other member => each other (List.mem_cons_of_mem item member)

end

/-! ### The exit of a poll -/

/-- The outcome of the exit event of an attempt that is done: why it was to be stopped, unless it succeeded. -/
def reported (stopReq outcome : Option AttemptOutcome) : Option AttemptOutcome :=
  if stopReq.isSome && outcome ≠ some .succeeded then stopReq else outcome

/-- An exit event that the act appends is of an attempt that is done, and carries what is reported of it. -/
def ExitsWith (stopReq : Option AttemptOutcome) (status : Status) (act : Act) : Prop :=
  ∀ id event sync, act = .append id event sync → event.kind = some .exit →
    status.done = true ∧ event.outcome = reported stopReq status.outcome

/-- Nothing but an append of the event is done. -/
theorem acts_spool (id : AttemptID) {event : WorkerEvent} {kind : Act → Prop}
    (appends : ∀ seq time sync, kind (.append id { event with seq := seq, time := time } sync)) :
    Acts kind (spool id event) := by
  refine (acts_quietly _).bind fun read => ?_
  cases read with
  | none => exact acts_fail _
  | some prior =>
      dsimp only
      split
      · exact acts_pure ()
      · refine (acts_quietly _).bind fun now => (acts_quietly _).bind fun sync => Acts.bind ?_ fun _ => ?_
        · intro world entry member
          rw [List.mem_singleton.mp member]
          exact appends _ _ _
        · split
          · exact acts_pure ()
          · exact acts_fail _

theorem remembers_spool (id : AttemptID) (event : WorkerEvent) : Remembers (spool id event) := by
  refine Remembers.bind (fun _ => rfl) fun read => ?_
  cases read with
  | none => exact remembers_fail _
  | some prior =>
      dsimp only
      split
      · exact remembers_pure ()
      · refine (remembers_ask _).bind fun now => (remembers_ask _).bind fun sync => Remembers.bind ?_ fun _ => ?_
        · intro world
          cases sync <;> rfl
        · split
          · exact remembers_pure ()
          · exact remembers_fail _

/-- The only exit event a status leads to carries what is reported of it. -/
theorem acts_spoolStatus (id : AttemptID) (stopReq : Option AttemptOutcome) (status : Status) :
    Acts (ExitsWith stopReq status) (spoolStatus id stopReq status) := by
  have logs : ∀ line, Acts (ExitsWith stopReq status) (spool id (logEvent line)) := by
    refine fun line => acts_spool id fun seq time sync => ?_
    intro _ event _ made exit
    cases made
    exact nomatch exit
  refine (acts_forM fun line _ => logs line).bind fun _ => ?_
  by_cases done : status.done = true
  · have exits : Acts (ExitsWith stopReq status)
        (spool id (exitEvent (reported stopReq status.outcome) status.exitCode status.reason)) := by
      refine acts_spool id fun seq time sync => ?_
      intro _ event _ made _
      cases made
      exact ⟨done, rfl⟩
    rw [if_pos done]
    dsimp only
    split
    · refine (acts_quietly _).bind fun uploaded => ?_
      split
      · exact acts_fail _
      · exact exits
    · exact exits
  · rw [if_neg done]
    exact acts_pure ()

theorem remembers_spoolStatus (id : AttemptID) (stopReq : Option AttemptOutcome) (status : Status) :
    Remembers (spoolStatus id stopReq status) := by
  refine (remembers_forM fun line _ => remembers_spool id _).bind fun _ => ?_
  split
  · dsimp only
    split
    · refine (remembers_ask _).bind fun uploaded => ?_
      split
      · exact remembers_fail _
      · exact remembers_spool id _
    · exact remembers_spool id _
  · exact remembers_pure ()

/-- A stop is remembered when the runtime accepts it. -/
theorem stop_whole {world : World} {id : AttemptID} {stopped : Bool} (outcome : AttemptOutcome)
    (held : (world.memory.running.find id).isSome = true) (answers : ∀ index, (world.tape index).stopped = stopped) :
    ∃ asked, (stop id outcome).whole world = (.ok (),
      { world with
        asked := asked
        memory := if stopped then
          { world.memory with stopped := Function.update world.memory.stopped id (some outcome) } else world.memory }) := by
  refine ⟨world.asked + 1, ?_⟩
  unfold stop
  show Program.whole (if (world.memory.running.find id).isSome = true then _ else _) world = _
  rw [if_pos held]
  show Program.whole (if (world.tape world.asked).stopped = true then _ else _) _ = _
  rw [answers]
  cases stopped <;> rfl

/-- The attempt has run for longer than it may, and was not asked to stop. -/
def World.overdue (world : World) (id : AttemptID) : Bool :=
  let maxRuntime := ((world.memory.running.find id).map Spec.maxRuntime).getD 0
  (0 < maxRuntime && (world.memory.stopped id).isNone) &&
    maxRuntime < (world.tape world.asked).now - world.memory.start id

/-- The local timeout stops an attempt that is overdue. -/
theorem enforceTimeout_whole {world : World} {id : AttemptID} {stopped : Bool}
    (answers : ∀ index, (world.tape index).stopped = stopped) :
    ∃ asked, (enforceTimeout id (world.memory.stopped id)).whole world = (.ok (),
      { world with
        asked := asked
        memory := if world.overdue id && stopped then
          { world.memory with stopped := Function.update world.memory.stopped id (some .timedOut) }
          else world.memory }) := by
  have due : world.overdue id =
      ((decide (0 < ((world.memory.running.find id).map Spec.maxRuntime).getD 0) && (world.memory.stopped id).isNone) &&
        decide (((world.memory.running.find id).map Spec.maxRuntime).getD 0 <
          (world.tape world.asked).now - world.memory.start id)) := rfl
  unfold enforceTimeout
  show ∃ asked, Program.whole
    (if (decide (0 < ((world.memory.running.find id).map Spec.maxRuntime).getD 0) &&
      (world.memory.stopped id).isNone) = true then _ else _) world = _
  by_cases bounded : (decide (0 < ((world.memory.running.find id).map Spec.maxRuntime).getD 0) &&
      (world.memory.stopped id).isNone) = true
  · rw [bounded, Bool.true_and] at due
    rw [if_pos bounded]
    show ∃ asked, Program.whole (if ((world.memory.running.find id).map Spec.maxRuntime).getD 0 <
      (world.tape world.asked).now - world.memory.start id then _ else _) _ = _
    by_cases late : ((world.memory.running.find id).map Spec.maxRuntime).getD 0 <
        (world.tape world.asked).now - world.memory.start id
    · rw [if_pos late, due, decide_eq_true late, Bool.true_and]
      have held : (world.memory.running.find id).isSome = true := by
        cases found : world.memory.running.find id with
        | none =>
            rw [found] at bounded
            exact absurd bounded (by simp)
        | some spec => rfl
      obtain ⟨asked, ended⟩ := @stop_whole { world with asked := world.asked + 1 } _ _ .timedOut held answers
      exact ⟨asked, ended⟩
    · rw [if_neg late, due, decide_eq_false late, Bool.false_and]
      exact ⟨world.asked + 1, rfl⟩
  · rw [Bool.eq_false_iff.mpr bounded, Bool.false_and] at due
    rw [if_neg bounded, due, Bool.false_and]
    exact ⟨world.asked, rfl⟩

/-- Enforcing the timeout, the agent does nothing for others to see. -/
theorem acts_enforceTimeout (id : AttemptID) (stopReq : Option AttemptOutcome) {kind : Act → Prop} :
    Acts kind (enforceTimeout id stopReq) := by
  have stops : Acts kind (stop id .timedOut) := by
    refine (acts_quietly _).bind fun held => ?_
    split
    · refine (acts_quietly _).bind fun stopped => ?_
      split
      · exact acts_quietly _
      · exact acts_pure ()
    · exact acts_pure ()
  refine (acts_quietly _).bind fun spec => (acts_quietly _).bind fun started => ?_
  dsimp only
  split
  · refine (acts_quietly _).bind fun now => ?_
    split
    · exact stops
    · exact acts_pure ()
  · exact acts_pure ()

section

variable {world : World} {id : AttemptID} {stopped : Bool} {status : Option Status}

/-- A poll once the time limit is enforced: what the runtime says is written down. -/
def polled (id : AttemptID) (stopReq : Option AttemptOutcome) : Option Status → AgentM Unit
  | none => .fail .runtime
  | some status => spoolStatus id stopReq status

/-- The exit event of a poll carries what was remembered before it, or what the runtime says. -/
theorem acts_pollAttempt (stops : ∀ index, (world.tape index).stopped = stopped)
    (reads : ∀ index, (world.tape index).status = status) {entry : Act × World}
    (member : entry ∈ (pollAttempt id).wholeTrace world) :
    ∃ said, status = some said ∧ ExitsWith (world.memory.stopped id) said entry.1 := by
  have enforced : entry ∈ (enforceTimeout id (world.memory.stopped id) >>= fun _ =>
      ask Reading.status >>= polled id (world.memory.stopped id)).wholeTrace world := member
  rcases mem_wholeTrace_bind enforced with enforced | ⟨_, next, came, later⟩
  · have quiet : Acts (fun _ => False) (enforceTimeout id (world.memory.stopped id)) := acts_enforceTimeout id _
    exact absurd (quiet world entry enforced) not_false
  · obtain ⟨asked, ended⟩ := enforceTimeout_whole stops
    rw [ended] at came
    obtain rfl := (Prod.mk.inj came).2.symm
    have answered : entry ∈ (polled id (world.memory.stopped id) (world.tape asked).status).wholeTrace _ := later
    rw [reads] at answered
    cases status with
    | none => exact absurd answered List.not_mem_nil
    | some said => exact ⟨said, rfl, acts_spoolStatus id _ said _ entry answered⟩

/-- A poll remembers a stop of its own that the runtime accepted. -/
theorem memory_pollAttempt (stops : ∀ index, (world.tape index).stopped = stopped) :
    ((pollAttempt id).whole world).2.memory =
      if world.overdue id && stopped then
        { world.memory with stopped := Function.update world.memory.stopped id (some .timedOut) }
      else world.memory := by
  obtain ⟨asked, ended⟩ := enforceTimeout_whole stops
  have enforced : (pollAttempt id).whole world = (enforceTimeout id (world.memory.stopped id) >>= fun _ =>
      ask Reading.status >>= polled id (world.memory.stopped id)).whole world := rfl
  rw [enforced, Program.whole_bind_ok ended]
  refine (Remembers.bind (remembers_ask _) fun status => ?_) _
  cases status with
  | none => exact remembers_fail _
  | some said => exact remembers_spoolStatus id _ said

end

/-! ### Runtimes -/

/-- The runtime says that the attempt timed out, or that it succeeded. -/
def TimedOutOrSucceeded (outcome : Option AttemptOutcome) : Prop :=
  outcome = some .timedOut ∨ outcome = some .succeeded

/-- A runtime's side of one attempt: what it makes of a stop and of a poll by what it meets at the call, and when it does
not say right after a stop for the timeout that the attempt ended in another way. -/
structure Backend where
  State : Type
  Input : Type
  stop : AttemptOutcome → Input → State → Bool × State
  poll : Input → State → Option Status × State
  heeds : Input → Input → State → Prop
  heeds_iff : ∀ atStop atPoll state, heeds atStop atPoll state ↔ ((stop .timedOut atStop state).1 = true →
    ∀ status, (poll atPoll (stop .timedOut atStop state).2).1 = some status → status.done = true →
      TimedOutOrSucceeded status.outcome)

/-- The state file is there; and where it can be read and saved at the poll, it says nothing of another end, which at the
stop could not be read or was overwritten. -/
def Sim.Heeds (atStop atPoll : Sim.Input) : Option Sim.SimState → Prop
  | none => False
  | some state =>
      atPoll.readable = true → atPoll.saved = true →
        if atStop.readable then
          atStop.saved = true → state.stopped = .unasked ∨ state.stopped = .asked .timedOut ∨
            state.stopped = .asked .succeeded
        else
          state.stopped = .asked .timedOut ∨ state.stopped = .asked .succeeded ∨
            state.stopped = .unasked ∧ (state.duration ≤ atPoll.now - state.startedAt → state.exit = 0)

/-- When the simulated runtime says of an attempt that it ended, and how. -/
theorem Sim.status_told (state : Sim.SimState) (now : Time) :
    ((state.status now).done = true → TimedOutOrSucceeded (state.status now).outcome) ↔
      state.stopped = .asked .timedOut ∨ state.stopped = .asked .succeeded ∨
        state.stopped = .unasked ∧ (state.duration ≤ now - state.startedAt → state.exit = 0) := by
  unfold Sim.SimState.status TimedOutOrSucceeded
  cases stopped : state.stopped with
  | invalid error => simp
  | asked outcome => simp
  | unasked =>
      dsimp only
      by_cases beyond : state.duration ≤ now - state.startedAt
      · rw [if_pos beyond]
        by_cases well : state.exit = 0 <;> simp [beyond, well]
      · rw [if_neg beyond]
        simp [beyond]

theorem Sim.heeds_iff (atStop atPoll : Sim.Input) (file : Option Sim.SimState) :
    Sim.Heeds atStop atPoll file ↔ ((Sim.stop .timedOut atStop file).1 = true →
      ∀ status, (Sim.poll atPoll (Sim.stop .timedOut atStop file).2).1 = some status → status.done = true →
        TimedOutOrSucceeded status.outcome) := by
  -- what a poll says of a file, where it says anything
  have polled : ∀ state : Sim.SimState, (∀ status, (Sim.poll atPoll (some state)).1 = some status → status.done = true →
      TimedOutOrSucceeded status.outcome) ↔ (atPoll.readable = true → atPoll.saved = true →
        ((state.status atPoll.now).done = true → TimedOutOrSucceeded (state.status atPoll.now).outcome)) := by
    intro state
    unfold Sim.poll
    cases atPoll.readable <;> cases atPoll.saved <;> simp
  cases file with
  | none =>
      refine ⟨False.elim, fun heeds => ?_⟩
      rcases heeds rfl _ rfl rfl with other | other <;> exact nomatch other
  | some state =>
      unfold Sim.Heeds Sim.stop
      cases readable : atStop.readable with
      | false =>
          simp only [Bool.false_eq_true, if_false, forall_true_left]
          rw [polled, Sim.status_told]
      | true =>
          cases saved : atStop.saved with
          | false => simp
          | true =>
              simp only [if_true, forall_true_left]
              rw [polled, Sim.status_told]
              dsimp only
              by_cases unasked : state.stopped = .unasked
              · simp [unasked]
              · simp [unasked]

/-- The simulated runtime. -/
def simBackend : Backend where
  State := Option Sim.SimState
  Input := Sim.Input
  stop := Sim.stop
  poll := Sim.poll
  heeds := Sim.Heeds
  heeds_iff := Sim.heeds_iff

/-- What the agent reads of a report, its log lines being text. -/
def Kube.Report.status (text : Kube.Bytes → String) (report : Kube.Report) : Status where
  done := report.done
  outcome := report.outcome
  exitCode := report.exitCode
  reason := report.reason
  logs := report.logs.map text
  artifact := false

/-- The Job, unless the deletion fails, is still there, and has not ended but by its deadline or with success. -/
def Kube.Heeds (deletion : Kube.Deletion) (glimpse : Kube.Glimpse) : Prop :=
  deletion ≠ .error → glimpse.job ≠ .notFound ∧ ∀ job, glimpse.job = .found job →
    ∀ ending, job.concludes glimpse = some ending → TimedOutOrSucceeded (some ending.1)

theorem Kube.heeds_iff (text : Kube.Bytes → String) (id : AttemptID) (deletion : Kube.Deletion) (glimpse : Kube.Glimpse)
    (runtime : Kube.Runtime) :
    Kube.Heeds deletion glimpse ↔ (Kube.stop deletion = true →
      ∀ status, (runtime.poll id glimpse).1.map (Kube.Report.status text) = some status → status.done = true →
        TimedOutOrSucceeded status.outcome) := by
  have accepted : Kube.stop deletion = true ↔ deletion ≠ .error := decide_eq_true_iff
  unfold Kube.Heeds
  rw [accepted]
  refine imp_congr_right fun _ => ?_
  unfold Kube.Runtime.poll
  cases answered : glimpse.job with
  | notFound => simp [Kube.Report.status, TimedOutOrSucceeded]
  | error => simp
  | found job =>
      dsimp only
      cases beyond : job.concludes glimpse with
      | none => simp [Kube.Report.status, beyond]
      | some ending =>
          obtain ⟨outcome, exitCode, reason⟩ := ending
          simp [Kube.Report.status, beyond]

/-- The Kubernetes runtime's side of an attempt. -/
def kubeBackend (text : Kube.Bytes → String) (id : AttemptID) : Backend where
  State := Kube.Runtime
  Input := Kube.Deletion × Kube.Glimpse
  stop _ input runtime := (Kube.stop input.1, runtime)
  poll input runtime := ((runtime.poll id input.2).1.map (Kube.Report.status text), (runtime.poll id input.2).2)
  heeds atStop atPoll _ := Kube.Heeds atStop.1 atPoll.2
  heeds_iff atStop atPoll runtime := Kube.heeds_iff text id atStop.1 atPoll.2 runtime

/-! ### Watching an attempt -/

/-- The agent and a runtime, and the outcomes for which the runtime was asked to stop the attempt and accepted. -/
structure Watch (backend : Backend) where
  world : World
  state : backend.State
  asked : List AttemptOutcome

/-- What comes next: an order to stop the attempt, of a heartbeat or for an interruption, or a poll. Whatever else is
asked is answered by a tape. -/
inductive Move (backend : Backend)
  | stop (outcome : AttemptOutcome) (input : backend.Input) (tape : Nat → Reading)
  | poll (atStop atPoll : backend.Input) (tape : Nat → Reading)

/-- A tape on which the runtime answers. -/
def answering (tape : Nat → Reading) (stopped : Bool) (status : Option Status) (index : Nat) : Reading :=
  { tape index with stopped := stopped, status := status }

namespace Watch

variable {backend : Backend}

/-- Whether a poll stops the attempt for the timeout. -/
def enforces (watch : Watch backend) (id : AttemptID) (tape : Nat → Reading) : Bool :=
  { watch.world with tape := tape }.overdue id

/-- What the runtime makes of the stop of a poll, if there is one. -/
def enforced (watch : Watch backend) (id : AttemptID) (atStop : backend.Input) (tape : Nat → Reading) :
    Bool × backend.State :=
  if watch.enforces id tape then backend.stop .timedOut atStop watch.state else (false, watch.state)

/-- The world a poll is made in. -/
def polled (watch : Watch backend) (id : AttemptID) (atStop atPoll : backend.Input) (tape : Nat → Reading) : World :=
  let (stopped, state) := watch.enforced id atStop tape
  { watch.world with tape := answering tape stopped (backend.poll atPoll state).1 }

/-- Make a move. The agent passes on an order only for an attempt it holds. -/
def next (id : AttemptID) (watch : Watch backend) : Move backend → Watch backend
  | .stop outcome input tape =>
      if (watch.world.memory.running.find id).isSome then
        let (stopped, state) := backend.stop outcome input watch.state
        { world := ((stop id outcome).whole { watch.world with tape := answering tape stopped none }).2
          state := state
          asked := if stopped then watch.asked ++ [outcome] else watch.asked }
      else watch
  | .poll atStop atPoll tape =>
      let (stopped, state) := watch.enforced id atStop tape
      { world := ((pollAttempt id).whole (watch.polled id atStop atPoll tape)).2
        state := (backend.poll atPoll state).2
        asked := if stopped then watch.asked ++ [.timedOut] else watch.asked }

/-- The outcomes of the exit events that a move appends to the spool. -/
def exits (id : AttemptID) (watch : Watch backend) : Move backend → List (Option AttemptOutcome)
  | .stop .. => []
  | .poll atStop atPoll tape =>
      ((pollAttempt id).wholeTrace (watch.polled id atStop atPoll tape)).filterMap fun entry =>
        match entry.1 with
        | .append _ event _ => if event.kind = some .exit then some event.outcome else none
        | _ => none

/-- After some moves. -/
def after (id : AttemptID) (watch : Watch backend) (moves : List (Move backend)) : Watch backend :=
  moves.foldl (next id) watch

/-- A move asks for no other outcome than was asked for, and where it is a poll that enforces the timeout the runtime
heeds that. -/
def Clean (id : AttemptID) (watch : Watch backend) : Move backend → Prop
  | .stop outcome _ _ => ∀ earlier ∈ watch.asked, earlier = outcome
  | .poll atStop atPoll tape => watch.enforces id tape = true → backend.heeds atStop atPoll watch.state

/-- Each move is clean where it is made. -/
def AllClean (id : AttemptID) : Watch backend → List (Move backend) → Prop
  | _, [] => True
  | watch, move :: moves => watch.Clean id move ∧ AllClean id (watch.next id move) moves

/-- What the runtime was asked for last is remembered. -/
def Remembered (id : AttemptID) (watch : Watch backend) : Prop :=
  ∀ reason ∈ watch.asked, watch.world.memory.stopped id = some reason

/-- The exit events of a move carry the outcome that was asked for, by then or in the move, unless the attempt
succeeded. -/
def Truthful (id : AttemptID) (watch : Watch backend) (move : Move backend) : Prop :=
  ∀ outcome ∈ watch.exits id move, outcome = some .succeeded ∨
    ∀ reason ∈ (watch.next id move).asked, outcome = some reason

/-- An order is remembered when the runtime accepts it. -/
theorem stop_remembered {id : AttemptID} {watch : Watch backend} {outcome : AttemptOutcome} {input : backend.Input}
    {tape : Nat → Reading} (remembered : watch.Remembered id) (clean : watch.Clean id (.stop outcome input tape)) :
    (watch.next id (.stop outcome input tape)).Remembered id := by
  rw [next]
  by_cases held : (watch.world.memory.running.find id).isSome = true
  · rw [if_pos held]
    cases answered : backend.stop outcome input watch.state with
    | mk stopped state =>
        dsimp only
        obtain ⟨asked, ended⟩ := @stop_whole { watch.world with tape := answering tape stopped none } id stopped outcome
          held fun _ => rfl
        intro reason member
        dsimp only at member ⊢
        rw [ended]
        cases stopped with
        | false => exact remembered reason member
        | true =>
            show Function.update watch.world.memory.stopped id (some outcome) id = some reason
            rw [Function.update_self]
            rcases List.mem_append.mp member with before | now
            · exact congrArg some (clean reason before).symm
            · exact congrArg some (List.mem_singleton.mp now).symm
  · rw [if_neg held]
    exact remembered

/-- What an exit event of a poll carries. -/
theorem exits_polled {id : AttemptID} {watch : Watch backend} {atStop atPoll : backend.Input} {tape : Nat → Reading}
    {outcome : Option AttemptOutcome} (member : outcome ∈ watch.exits id (.poll atStop atPoll tape)) :
    ∃ said, (backend.poll atPoll (watch.enforced id atStop tape).2).1 = some said ∧ said.done = true ∧
      outcome = reported (watch.world.memory.stopped id) said.outcome := by
  obtain ⟨⟨act, at_⟩, made, shown⟩ := List.mem_filterMap.mp member
  obtain ⟨said, answered, exits⟩ := acts_pollAttempt (fun _ => rfl) (fun _ => rfl) made
  cases act with
  | append other event sync =>
      dsimp only at shown
      split at shown
      · next exit =>
        cases shown
        exact ⟨said, answered, exits other event sync rfl exit⟩
      · cases shown
  | beat | claim | ack | report | compact | remove | forget => exact nomatch shown

/-- A poll remembers the stop of its own that the runtime accepted. -/
theorem poll_memory (id : AttemptID) (watch : Watch backend) (atStop atPoll : backend.Input) (tape : Nat → Reading) :
    (watch.next id (.poll atStop atPoll tape)).world.memory =
      if watch.enforces id tape && (watch.enforced id atStop tape).1 then
        { watch.world.memory with stopped := Function.update watch.world.memory.stopped id (some .timedOut) }
      else watch.world.memory :=
  @memory_pollAttempt (watch.polled id atStop atPoll tape) id _ fun _ => rfl

/-- An attempt that a poll stops was not asked to stop before. -/
theorem enforces_unasked {id : AttemptID} {watch : Watch backend} {tape : Nat → Reading}
    (enforces : watch.enforces id tape = true) : watch.world.memory.stopped id = none := by
  unfold Watch.enforces World.overdue at enforces
  rw [Bool.and_eq_true, Bool.and_eq_true] at enforces
  exact Option.isNone_iff_eq_none.mp enforces.1.2

/-- A clean move remembers what is asked for, and its exit events carry it. -/
theorem next_remembered {id : AttemptID} {watch : Watch backend} {move : Move backend}
    (remembered : watch.Remembered id) (clean : watch.Clean id move) :
    (watch.next id move).Remembered id ∧ watch.Truthful id move := by
  cases move with
  | stop outcome input tape => exact ⟨stop_remembered remembered clean, fun _ none => absurd none List.not_mem_nil⟩
  | poll atStop atPoll tape =>
      have memory := poll_memory id watch atStop atPoll tape
      have asked : (watch.next id (.poll atStop atPoll tape)).asked =
          if (watch.enforced id atStop tape).1 then watch.asked ++ [.timedOut] else watch.asked := rfl
      unfold Remembered Truthful
      rw [memory, asked]
      by_cases enforces : watch.enforces id tape = true
      · have unasked := enforces_unasked enforces
        have none_asked : watch.asked = [] := by
          refine List.eq_nil_iff_forall_not_mem.mpr fun reason member => ?_
          exact nomatch unasked.symm.trans (remembered reason member)
        have ran : watch.enforced id atStop tape = backend.stop .timedOut atStop watch.state := if_pos enforces
        rw [none_asked, enforces, Bool.true_and]
        cases stopped : (watch.enforced id atStop tape).1 with
        | false =>
            refine ⟨fun _ none => absurd none List.not_mem_nil, fun _ _ => Or.inr fun _ none => absurd none List.not_mem_nil⟩
        | true =>
            refine ⟨fun reason member => ?_, fun outcome member => ?_⟩
            · rw [List.mem_singleton.mp member]
              exact Function.update_self ..
            · obtain ⟨said, answered, done, rfl⟩ := exits_polled member
              rw [ran] at stopped answered
              have told := (backend.heeds_iff atStop atPoll watch.state).mp (clean enforces) stopped said answered done
              rw [unasked]
              show said.outcome = some .succeeded ∨ _
              refine told.symm.imp_right fun timedOut reason member => ?_
              rw [timedOut, List.mem_singleton.mp member]
              rfl
      · have idle : (watch.enforced id atStop tape).1 = false := congrArg Prod.fst (if_neg enforces)
        rw [idle, Bool.and_false]
        refine ⟨remembered, fun outcome member => ?_⟩
        obtain ⟨said, -, -, rfl⟩ := exits_polled member
        by_cases well : said.outcome = some .succeeded
        · refine Or.inl ?_
          unfold reported
          rw [well]
          simp
        · refine Or.inr fun reason member => ?_
          rw [remembered reason member]
          unfold reported
          simp [well]

end Watch

/-- Whatever the runtime and whatever the order of the orders to stop an attempt and of the polls: as long as it is asked
to stop for one reason only, and as long as a poll that stops the attempt for the timeout finds it, right after that,
over in no other way, the exit events carry that reason unless the attempt succeeded. -/
theorem stops_reported (backend : Backend) (id : AttemptID) (watch : Watch backend) (unasked : watch.asked = [])
    (moves : List (Move backend)) (clean : watch.AllClean id moves) :
    ∀ before move later, moves = before ++ move :: later → (watch.after id before).Truthful id move := by
  have remembered : watch.Remembered id := by
    intro reason member
    rw [unasked] at member
    exact absurd member List.not_mem_nil
  clear unasked
  intro before
  induction before generalizing watch moves with
  | nil =>
      rintro move later rfl
      exact (Watch.next_remembered remembered clean.1).2
  | cons first before inductionHypothesis =>
      rintro move later rfl
      exact inductionHypothesis _ _ clean.2 (Watch.next_remembered remembered clean.1).1 move later rfl

/-- A node that holds an attempt that may run for an hour, of which nothing was spooled yet. -/
def World.holding : World :=
  { World.node fun _ => .calm with memory := Memory.new.hold { attemptID := "att", maxRuntime := hour } 0 }

/-- The agent, and a cluster of which no log was read. -/
def kubeWatch : Watch (kubeBackend (fun _ => "") "att") := ⟨World.holding, ⟨fun _ => 0⟩, []⟩

/-- What the API server answers when the Job is deleted and then looked for. -/
def afterDeletion (job : Kube.JobAnswer) : Kube.Deletion × Kube.Glimpse := (.deleted, ⟨job, none, none, none, fun _ _ => none⟩)

/-- A poll two hours after the start. -/
def latePoll (job : Kube.JobAnswer) : Move (kubeBackend (fun _ => "") "att") :=
  .poll (afterDeletion job) (afterDeletion job) fun _ => { Reading.calm with now := 2 * hour }

/-- The Job is still there when the poll that stops it looks for it, and the next poll reports the timeout. -/
theorem stops_reported_timeout :
    let first := latePoll (.found ⟨[], 0, 1⟩)
    let second := latePoll .notFound
    (kubeWatch.after "att" [first]).Truthful "att" second ∧
      (kubeWatch.after "att" [first]).exits "att" second = [some .timedOut] := by
  refine ⟨stops_reported (kubeBackend (fun _ => "") "att") "att" kubeWatch rfl
    [latePoll (.found ⟨[], 0, 1⟩), latePoll .notFound] ⟨fun _ _ => ⟨nofun, ?_⟩, fun enforces => ?_, trivial⟩
    [latePoll (.found ⟨[], 0, 1⟩)] (latePoll .notFound) [] rfl, by decide +kernel⟩
  · intro job found ending concludes
    cases found
    exact nomatch concludes
  · exact absurd enforces (by decide +kernel)

/-- The Job is gone when the poll that stops it looks for it, and is reported as lost. -/
theorem timeout_lost :
    kubeWatch.exits "att" (latePoll .notFound) = [some .lost] ∧
      (kubeWatch.next "att" (latePoll .notFound)).asked = [.timedOut] := by
  decide +kernel

end GpuBroker.Agent
