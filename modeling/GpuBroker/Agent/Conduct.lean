/-
This file is the contract of the worker agent: on what grounds it acts, what it
counts on when it does, and that every program of it follows.

A report holds the newest five hundred events of the spool, and once it is answered
the messages of all of them are dropped. So the agent counts on it that no report
leaves out an event newer than the newest the control plane holds. Then every spool
file stays in order: its events are numbered from one, and the control plane holds
none that it does not, and the exit if it holds that far.
-/
import GpuBroker.Agent.Loop

namespace GpuBroker.Agent

open Library ControlPlane

/-! ### The books -/

/-- The events a spool file holds; none where there is no file. -/
def World.events (world : World) (id : AttemptID) : List WorkerEvent :=
  ((world.spoolDir.find id).getD .empty).events

/-- The number of the newest of the events. -/
def newest (events : List WorkerEvent) : Int := (events.map WorkerEvent.seq).foldr max 0

/-- One of the events is an exit. -/
def Exited (events : List WorkerEvent) : Prop := ∃ event ∈ events, event.kind = some .exit

instance (events : List WorkerEvent) : Decidable (Exited events) :=
  inferInstanceAs (Decidable (∃ event ∈ events, event.kind = some .exit))

/-- No exit of the attempt waits in the spool. -/
def Unwaited (world : World) (id : AttemptID) : Prop :=
  ∀ event ∈ world.events id, event.kind = some .exit → event.seq ≤ newest (world.received id)

instance (world : World) (id : AttemptID) : Decidable (Unwaited world id) :=
  inferInstanceAs (Decidable (∀ event ∈ world.events id,
    event.kind = some .exit → event.seq ≤ newest (world.received id)))

/-- What the agent counts on when it acts. Nothing is written behind a torn line, nor into a new file for
an attempt of which the control plane has heard; a report that is accepted leaves out no event newer than
the newest the control plane holds, and cuts no message; an attempt is disowned only when all of its
spool was received, and taken back only while no exit of it waits there. -/
def Clear : Act → World → Prop
  | .beat _ _ response, world => ∀ id ∈ response.abandon, Unwaited world id
  | .append _ _ .unopened, _ => True
  | .append id _ _, world =>
      match world.spoolDir.find id with
      | none => world.received id = []
      | some file => file.rest = none
  | .report id _ answer, world =>
      (answer.accepted = true →
        ((world.events id).length : Int) ≤ newest (world.received id) + maxBatch ∧
          ∀ event ∈ world.events id, event.message.utf8ByteSize ≤ maxMessage) ∧
      (answer.response = .status 404 → ((world.events id).length : Int) ≤ newest (world.received id))
  | .claim _, _ | .ack _, _ | .compact _ _, _ | .remove _, _ | .forget _ _, _ => True

instance (act : Act) (world : World) : Decidable (Clear act world) :=
  match act with
  | .beat _ _ response =>
      inferInstanceAs (Decidable (∀ id ∈ response.abandon, Unwaited world id))
  | .append _ _ .unopened => isTrue trivial
  | .append id event (.cut bytes) =>
      match found : world.spoolDir.find id with
      | none => decidable_of_iff (world.received id = []) (by simp [Clear, found])
      | some file => decidable_of_iff (file.rest = none) (by simp [Clear, found])
  | .append id event .synced =>
      match found : world.spoolDir.find id with
      | none => decidable_of_iff (world.received id = []) (by simp [Clear, found])
      | some file => decidable_of_iff (file.rest = none) (by simp [Clear, found])
  | .report id _ answer => inferInstanceAs (Decidable
      ((answer.accepted = true →
        ((world.events id).length : Int) ≤ newest (world.received id) + maxBatch ∧
          ∀ event ∈ world.events id, event.message.utf8ByteSize ≤ maxMessage) ∧
      (answer.response = .status 404 → ((world.events id).length : Int) ≤ newest (world.received id))))
  | .claim _ | .ack _ | .compact _ _ | .remove _ | .forget _ _ => isTrue trivial

/-- What a program knows when it acts. -/
def Act.Grounds : Act → World → Prop
  | .append id event _, world =>
      event.seq = (world.events id).length + 1 ∧ (event.outcome.isSome = true → event.kind = some .exit)
  | .report id body _, world => world.events id ≠ [] ∧ body = batch (world.events id)
  | .compact id events, world =>
      world.events id = events ∧ events ≠ [] ∧ terminal events = false ∧
        (events.length : Int) ≤ newest (world.received id)
  | .remove id, world =>
      world.events id ≠ [] ∧ ((world.events id).length : Int) ≤ newest (world.received id)
  | .forget id concluded, world => Unwaited world id ∧ (concluded = true → Exited (world.received id))
  | .beat .., _ | .claim _, _ | .ack _, _ => True

theorem le_newest {events : List WorkerEvent} {event : WorkerEvent} (member : event ∈ events) :
    event.seq ≤ newest events := by
  induction events with
  | nil => cases member
  | cons first rest inductionHypothesis =>
      rcases List.mem_cons.mp member with rfl | later
      · exact le_max_left _ _
      · exact (inductionHypothesis later).trans (le_max_right _ _)

theorem newest_le {events : List WorkerEvent} {bound : Int} (nonneg : 0 ≤ bound)
    (each : ∀ event ∈ events, event.seq ≤ bound) : newest events ≤ bound := by
  induction events with
  | nil => exact nonneg
  | cons first rest inductionHypothesis =>
      exact max_le (each first List.mem_cons_self)
        (inductionHypothesis fun event member => each event (List.mem_cons_of_mem first member))

theorem newest_nonneg (events : List WorkerEvent) : 0 ≤ newest events := by
  induction events with
  | nil => exact le_rfl
  | cons first rest inductionHypothesis => exact inductionHypothesis.trans (le_max_right _ _)

/-- The events of a spool, beside what was received of the attempt. -/
structure InOrder (events received : List WorkerEvent) : Prop where
  numbered : Numbered events
  ahead : newest received ≤ events.length
  exits : ∀ event ∈ events, event.outcome.isSome = true → event.kind = some .exit
  told : ∀ event ∈ events, event.outcome.isSome = true → event.seq ≤ newest received → Exited received

/-- The invariant: every spool file is in order. -/
def Orderly (world : World) : Prop :=
  ∀ id file, world.spoolDir.find id = some file → InOrder file.events (world.received id)

theorem InOrder.begin : InOrder [] [] :=
  ⟨Numbered.nil, le_rfl, fun _ none => absurd none List.not_mem_nil,
    fun _ none => absurd none List.not_mem_nil⟩

/-- An event is added under the next number. -/
theorem InOrder.grow {events received : List WorkerEvent} {event : WorkerEvent}
    (order : InOrder events received) (next : event.seq = events.length + 1)
    (exit : event.outcome.isSome = true → event.kind = some .exit) :
    InOrder (events ++ [event]) received := by
  have length : ((events ++ [event]).length : Int) = events.length + 1 := by simp
  refine ⟨order.numbered.snoc next, ?_, ?_, ?_⟩
  · rw [length]
    exact order.ahead.trans (by omega)
  · intro other member
    rcases List.mem_append.mp member with before | last
    · exact order.exits other before
    · rw [List.mem_singleton.mp last]
      exact exit
  · intro other member concluded known
    rcases List.mem_append.mp member with before | last
    · exact order.told other before concluded known
    · rw [List.mem_singleton.mp last, next] at known
      have ahead := order.ahead
      omega

/-- A report is received that leaves out nothing new. -/
theorem InOrder.receive {events received : List WorkerEvent} (order : InOrder events received)
    (fits : (events.length : Int) ≤ newest received + maxBatch) :
    InOrder events (received ++ batch events) := by
  have bounded : newest (received ++ batch events) ≤ events.length := by
    refine newest_le (by omega) fun event member => ?_
    rcases List.mem_append.mp member with before | now
    · exact (le_newest before).trans order.ahead
    · obtain ⟨kept, among, rfl⟩ := of_mem_batch now
      rw [sent_seq]
      exact order.numbered.le among
  refine ⟨order.numbered, bounded, order.exits, fun event member concluded _ => ?_⟩
  by_cases known : event.seq ≤ newest received
  · obtain ⟨exit, before, isExit⟩ := order.told event member concluded known
    exact ⟨exit, List.mem_append_left _ before, isExit⟩
  · have now := order.numbered.mem_batch member (by omega)
    exact ⟨sent event, List.mem_append_right _ now, order.exits event member concluded⟩

/-- The messages are dropped. -/
theorem InOrder.compact {events received : List WorkerEvent} (order : InOrder events received)
    (concluded : terminal events = false) : InOrder (events.map blank) received := by
  have open_ : ∀ event ∈ events.map blank, event.outcome.isSome = false := by
    intro event member
    obtain ⟨kept, among, rfl⟩ := List.mem_map.mp member
    exact List.any_eq_false.mp concluded kept among |> Bool.eq_false_iff.mpr
  refine ⟨order.numbered.map fun _ => rfl, ?_, fun event member some => ?_, fun event member some => ?_⟩
  · rw [List.length_map]
    exact order.ahead
  · rw [open_ event member] at some
    cases some
  · rw [open_ event member] at some
    cases some

/-- A report that leaves out nothing new makes the newest event of the spool the newest received. -/
theorem InOrder.newest_receive {events received : List WorkerEvent} (order : InOrder events received)
    (nonempty : events ≠ []) : (events.length : Int) ≤ newest (received ++ batch events) := by
  obtain ⟨event, member, seq⟩ := order.numbered.batch_newest nonempty
  rw [← seq]
  exact le_newest (List.mem_append_right _ member)

/-! ### What an act keeps -/

@[simp] theorem find_write (world : World) (id other : AttemptID) (file : SpoolFile) :
    (world.write id file).spoolDir.find other = if other = id then some file else world.spoolDir.find other :=
  Files.find_write _ _ _ _

@[simp] theorem received_write (world : World) (id : AttemptID) (file : SpoolFile) :
    (world.write id file).received = world.received := rfl

theorem events_found {world : World} {id : AttemptID} {file : SpoolFile}
    (found : world.spoolDir.find id = some file) : world.events id = file.events := by
  unfold World.events
  rw [found]
  rfl

/-- A spool that holds events is a file. -/
theorem found_of_events {world : World} {id : AttemptID} (nonempty : world.events id ≠ []) :
    ∃ file, world.spoolDir.find id = some file ∧ file.events = world.events id := by
  cases found : world.spoolDir.find id with
  | none =>
      unfold World.events at nonempty
      rw [found] at nonempty
      exact absurd rfl nonempty
  | some file => exact ⟨file, rfl, (events_found found).symm⟩

/-- What an append is made to: a file whose last line is finished, in order. -/
theorem appendable {world : World} {id : AttemptID} {event : WorkerEvent} {sync : Sync}
    (orderly : Orderly world) (clear : Clear (.append id event sync) world) (opened : sync ≠ .unopened) :
    ((world.spoolDir.find id).getD .empty).rest = none ∧
      InOrder (world.events id) (world.received id) := by
  have whole : match world.spoolDir.find id with
      | none => world.received id = []
      | some file => file.rest = none := by
    cases sync with
    | unopened => exact absurd rfl opened
    | cut bytes => exact clear
    | synced => exact clear
  unfold World.events
  cases found : world.spoolDir.find id with
  | none =>
      rw [found] at whole
      rw [show world.received id = [] from whole]
      exact ⟨rfl, InOrder.begin⟩
  | some file =>
      rw [found] at whole
      exact ⟨whole, orderly id file found⟩

theorem apply_append {world : World} {id : AttemptID} {event : WorkerEvent} {sync : Sync}
    (opened : sync ≠ .unopened) :
    (Act.append id event sync).apply world =
      world.write id
        (((world.spoolDir.find id).getD .empty).append event (world.lineBytes event) sync) := by
  cases sync with
  | unopened => exact absurd rfl opened
  | cut bytes => rfl
  | synced => rfl

theorem spoolDir_report (world : World) (id : AttemptID) (body : List WorkerEvent) (answer : Answer) :
    ((Act.report id body answer).apply world).spoolDir = world.spoolDir := by
  rw [Act.apply]
  split <;> rfl

/-- What the control plane holds after a report. -/
theorem received_report (world : World) (id other : AttemptID) (body : List WorkerEvent)
    (answer : Answer) :
    ((Act.report id body answer).apply world).received other =
      if answer.accepted = true ∧ other = id then world.received other ++ body
      else world.received other := by
  rw [Act.apply]
  by_cases accepted : answer.accepted = true
  · by_cases same : other = id
    · subst same
      simp [accepted]
    · simp [accepted, same]
  · simp [accepted]

/-- One act keeps every spool file in order. -/
theorem Orderly.act {world : World} {act : Act} (orderly : Orderly world) (clear : Clear act world)
    (grounds : act.Grounds world) : Orderly (act.apply world) := by
  cases act with
  | beat | claim | ack | forget => exact orderly
  | append id event sync =>
      by_cases opened : sync = .unopened
      · subst opened
        exact orderly
      · obtain ⟨whole, order⟩ := appendable orderly clear opened
        rw [apply_append opened]
        intro other file found
        rw [find_write] at found
        split at found
        · next same =>
          subst same
          cases found
          rw [received_write]
          rcases SpoolFile.events_append whole event (world.lineBytes event) sync with same | grown
          · rw [same]
            exact order
          · rw [grown]
            exact order.grow grounds.1 grounds.2
        · exact orderly other file found
  | report id body answer =>
      obtain ⟨_, rfl⟩ := grounds
      intro other file found
      rw [spoolDir_report] at found
      have order := orderly other file found
      rw [received_report]
      split
      · next now =>
        obtain ⟨accepted, rfl⟩ := now
        have fits := (clear.1 accepted).1
        rw [events_found found] at fits ⊢
        exact order.receive fits
      · exact order
  | compact id events =>
      obtain ⟨rfl, nonempty, concluded, _⟩ := grounds
      obtain ⟨kept, here, same⟩ := found_of_events nonempty
      intro other file found
      rw [Act.apply] at found ⊢
      rw [find_write] at found
      split at found
      · next mine =>
        subst mine
        cases found
        rw [SpoolFile.events_of, received_write, ← same]
        exact (orderly other kept here).compact (same ▸ concluded)
      · exact orderly other file found
  | remove id =>
      intro other file found
      have still : world.spoolDir.find other = some file := by
        have after := Files.find_remove world.spoolDir id other
        split at after
        · exact nomatch after.symm.trans found
        · exact after.symm.trans found
      exact orderly other file still

/-! ### The programs -/

/-- Nothing changed on disk or in the books of the control plane. -/
structure SameBooks (world next : World) : Prop where
  spoolDir : next.spoolDir = world.spoolDir
  received : next.received = world.received

theorem SameBooks.events {world next : World} (same : SameBooks world next) (id : AttemptID) :
    next.events id = world.events id := by
  unfold World.events
  rw [same.spoolDir]

theorem SameBooks.trans {one two three : World} (first : SameBooks one two) (second : SameBooks two three) :
    SameBooks one three :=
  ⟨second.spoolDir.trans first.spoolDir, second.received.trans first.received⟩

theorem SameBooks.unwaited {world next : World} (same : SameBooks world next) {id : AttemptID}
    (unwaited : Unwaited world id) : Unwaited next id := by
  unfold Unwaited
  rw [same.events, same.received]
  exact unwaited

theorem SameBooks.orderly {world next : World} (same : SameBooks world next) (orderly : Orderly world) :
    Orderly next := by
  unfold Orderly
  rw [same.spoolDir, same.received]
  exact orderly

/-- The contract of the agent: it acts on grounds, and otherwise leaves the books alone. -/
def conduct : Contract World Act Fault where
  rely := fun before after => after = before
  guarantee := fun label before after =>
    match label with
    | none => SameBooks before after
    | some act => act.Grounds before ∧ after = act.apply before
  invariant := Orderly
  allowed := Clear
  raises := fun _ => True
  refl := fun _ => rfl
  trans := fun first second => second.trans first

section Rules

variable {Value Result : Type} {world : World} {post : Result → World → Prop}

theorem safe_pure {result : Result} (holds : post result world) :
    (pure result : AgentM Result).Safe conduct post world := by
  rintro current rfl _
  exact holds

theorem safe_fail (fault : Fault) : (.fail fault : AgentM Result).Safe conduct post world :=
  Program.Safe.fail trivial

theorem safe_quietly {action : World → Value × World} {rest : Value → AgentM Result}
    (still : ∀ world, SameBooks world (action world).2)
    (resumes : (rest (action world).1).Safe conduct post (action world).2) :
    (Program.quietly action >>= rest).Safe conduct post world := by
  rintro current rfl orderly _
  exact ⟨(still current).orderly orderly, still current, resumes⟩

theorem safe_ask {question : Reading → Value} {rest : Value → AgentM Result}
    (resumes : ∀ value next, SameBooks world next → (rest value).Safe conduct post next) :
    (ask question >>= rest).Safe conduct post world :=
  safe_quietly (fun _ => ⟨rfl, rfl⟩) (resumes _ _ ⟨rfl, rfl⟩)

theorem safe_read {view : World → Value} {rest : Value → AgentM Result}
    (resumes : (rest (view world)).Safe conduct post world) :
    (Program.read view >>= rest).Safe conduct post world :=
  safe_quietly (fun _ => ⟨rfl, rfl⟩) resumes

theorem safe_recall {view : Memory → Value} {rest : Value → AgentM Result}
    (resumes : ∀ value, (rest value).Safe conduct post world) :
    (recollect view >>= rest).Safe conduct post world :=
  safe_read (resumes _)

theorem safe_remember {change : Memory → Memory} {rest : Unit → AgentM Result}
    (resumes : ∀ next, SameBooks world next → (rest ()).Safe conduct post next) :
    (remember change >>= rest).Safe conduct post world :=
  safe_quietly (fun _ => ⟨rfl, rfl⟩) (resumes _ ⟨rfl, rfl⟩)

theorem safe_remembered {change : Memory → Memory} {post : Unit → World → Prop}
    (holds : ∀ next, SameBooks world next → post () next) : (remember change).Safe conduct post world := by
  rintro current rfl orderly _
  refine ⟨orderly, ⟨rfl, rfl⟩, ?_⟩
  rintro next rfl _
  exact holds _ ⟨rfl, rfl⟩

/-- An act is made on grounds, and what comes after it goes on from what it leaves. -/
theorem safe_perform {act : Act} {rest : Unit → AgentM Result} (grounds : act.Grounds world)
    (resumes : Orderly world → Clear act world → (rest ()).Safe conduct post (act.apply world)) :
    (perform act >>= rest).Safe conduct post world := by
  rintro current rfl orderly permitted
  have clear := permitted act rfl
  exact ⟨orderly.act clear grounds, ⟨grounds, rfl⟩, resumes orderly clear⟩

theorem safe_performed {act : Act} {post : Unit → World → Prop} (grounds : act.Grounds world)
    (holds : post () (act.apply world)) : (perform act).Safe conduct post world := by
  rintro current rfl orderly permitted
  refine ⟨orderly.act (permitted act rfl) grounds, ⟨grounds, rfl⟩, ?_⟩
  rintro next rfl _
  exact holds

end Rules

/-- A program of the agent follows its contract, wherever it starts. -/
def Follows {Result : Type} (program : AgentM Result) : Prop :=
  ∀ world, program.Safe conduct (fun _ _ => True) world

theorem Follows.bind {Value Result : Type} {first : AgentM Value} {rest : Value → AgentM Result}
    (begins : Follows first) (resumes : ∀ value, Follows (rest value)) : Follows (first >>= rest) :=
  fun world => (begins world).bind fun value next _ _ => resumes value next

theorem follows_forM {Item : Type} {items : List Item} {body : Item → AgentM Unit}
    (each : ∀ item ∈ items, Follows (body item)) : Follows (forM items body) :=
  fun _ => Program.Safe.settled fun _ _ kept =>
    Program.Safe.forM (fun _ _ _ holds => holds) (fun item member state _ _ => each item member state) kept
      trivial

/-- An event is appended under the number after those in the file. -/
theorem follows_spool (id : AttemptID) {event : WorkerEvent}
    (exit : event.outcome.isSome = true → event.kind = some .exit) : Follows (spool id event) := by
  intro world
  refine safe_read ?_
  cases readable : ((world.spoolDir.find id).getD .empty).read with
  | none => exact safe_fail _
  | some prior =>
      have all : prior = world.events id := SpoolFile.read_eq readable
      simp only
      split
      · exact safe_pure trivial
      · refine safe_ask fun now between same => safe_ask fun sync last again => safe_perform ⟨?_, exit⟩ ?_
        · rw [again.events, same.events, ← all]
        · intro _ _
          split
          · exact safe_pure trivial
          · exact safe_fail _

/-- Of a spool that was received no exit waits. -/
theorem Orderly.unwaited {world : World} (orderly : Orderly world) {id : AttemptID}
    (nonempty : world.events id ≠ [])
    (told : ((world.events id).length : Int) ≤ newest (world.received id)) : Unwaited world id := by
  obtain ⟨file, found, same⟩ := found_of_events nonempty
  intro event member _
  rw [← same] at member told
  exact ((orderly id file found).numbered.le member).trans told

/-- Once everything was received, the spool is deleted and the attempt forgotten. -/
theorem safe_finish {world : World} {id : AttemptID} {concluded : Bool} (grounds : (Act.remove id).Grounds world)
    (exit : concluded = true → Exited (world.received id)) :
    (finish id concluded).Safe conduct (fun _ _ => True) world := by
  refine Program.Safe.settled fun _ here orderly => ?_
  obtain rfl : _ = world := here
  refine safe_ask fun saved next same => ?_
  have told : (Act.remove id).Grounds next := by
    show next.events id ≠ [] ∧ _ ≤ newest (next.received id)
    rw [same.events, same.received]
    exact grounds
  split
  · refine safe_perform told fun _ _ => safe_performed ⟨?_, ?_⟩ trivial
    · intro event member
      unfold World.events at member
      rw [show ((Act.remove id).apply next).spoolDir.find id = none from
        (Files.find_remove _ id id).trans (if_pos rfl)] at member
      cases member
    · exact same.received ▸ exit
  · refine safe_performed ⟨?_, same.received ▸ exit⟩ trivial
    exact (same.orderly orderly).unwaited told.1 told.2

theorem events_report (world : World) (id other : AttemptID) (body : List WorkerEvent) (answer : Answer) :
    ((Act.report id body answer).apply world).events other = world.events other := by
  unfold World.events
  rw [spoolDir_report]

/-- A report that was accepted has brought everything, and the exit if there is one. -/
theorem accepted_report {world : World} {id : AttemptID} {answer : Answer} (orderly : Orderly world)
    (nonempty : world.events id ≠ [])
    (clear : Clear (.report id (batch (world.events id)) answer) world) (accepted : answer.accepted = true) :
    let last := (Act.report id (batch (world.events id)) answer).apply world
    ((world.events id).length : Int) ≤ newest (last.received id) ∧
      (terminal (world.events id) = true → Exited (last.received id)) := by
  intro last
  obtain ⟨file, found, same⟩ := found_of_events nonempty
  have order : InOrder (world.events id) (world.received id) := same ▸ orderly id file found
  have received : last.received id = world.received id ++ batch (world.events id) := by
    rw [received_report, if_pos ⟨accepted, rfl⟩]
  rw [received]
  refine ⟨order.newest_receive nonempty, fun concluded => ?_⟩
  obtain ⟨event, member, outcome⟩ := List.any_eq_true.mp concluded
  exact (order.receive (clear.1 accepted).1).told event member outcome
    ((order.numbered.le member).trans (order.newest_receive nonempty))

/-- Of an attempt that the control plane disowns it has received everything. -/
theorem disowned_report {world : World} {id : AttemptID} {body : List WorkerEvent} {answer : Answer}
    (nonempty : world.events id ≠ []) (clear : Clear (.report id body answer) world)
    (disowned : answer.response = .status 404) :
    (Act.remove id).Grounds ((Act.report id body answer).apply world) := by
  have all := clear.2 disowned
  show World.events _ id ≠ [] ∧ _ ≤ newest _
  rw [events_report, received_report]
  split
  · refine ⟨nonempty, all.trans (newest_le (newest_nonneg _) fun event before => ?_)⟩
    exact le_newest (List.mem_append_left _ before)
  · exact ⟨nonempty, all⟩

/-- A spool that was reported is dropped only as far as it was received. -/
theorem follows_flushFile (id : AttemptID) : Follows (flushFile id) := by
  intro world
  refine safe_read ?_
  cases readable : ((world.spoolDir.find id).getD .empty).read with
  | none => exact safe_pure trivial
  | some events =>
      have all : events = world.events id := SpoolFile.read_eq readable
      cases events with
      | nil => exact safe_pure trivial
      | cons first rest =>
          have nonempty : world.events id ≠ [] := all ▸ List.cons_ne_nil first rest
          simp only
          rw [all]
          refine safe_ask fun answer asked same => ?_
          rw [← same.events] at nonempty ⊢
          refine safe_perform ⟨nonempty, rfl⟩ fun orderly clear => ?_
          cases came : answer.response with
          | failed => exact safe_fail _
          | ok _ =>
              obtain ⟨all, exits⟩ := accepted_report orderly nonempty clear (answer.honest came)
              simp only
              split
              · next concluded =>
                refine safe_finish ⟨?_, ?_⟩ fun _ => exits concluded
                · rw [events_report]
                  exact nonempty
                · rw [events_report]
                  exact all
              · next goesOn =>
                refine safe_ask fun saved last still => ?_
                split
                · refine safe_performed ⟨?_, nonempty, Bool.eq_false_iff.mpr goesOn, ?_⟩ trivial
                  · rw [still.events, events_report]
                  · rw [still.received]
                    exact all
                · exact safe_fail _
          | status code =>
              simp only
              split
              · next unknown =>
                exact safe_finish (disowned_report nonempty clear (unknown ▸ came)) nofun
              · exact safe_fail _

theorem follows_flushSpool : Follows flushSpool := fun _ =>
  safe_read (follows_forM (fun id _ => follows_flushFile id) _)

/-! ### The rest of the loop -/

theorem follows_recall {Value Result : Type} {view : Memory → Value} {rest : Value → AgentM Result}
    (resumes : ∀ value, Follows (rest value)) : Follows (recollect view >>= rest) :=
  fun world => safe_recall fun value => resumes value world

theorem follows_ask {Value Result : Type} {question : Reading → Value} {rest : Value → AgentM Result}
    (resumes : ∀ value, Follows (rest value)) : Follows (ask question >>= rest) :=
  fun _ => safe_ask fun value next _ => resumes value next

theorem follows_remember {Result : Type} {change : Memory → Memory} {rest : Unit → AgentM Result}
    (resumes : Follows (rest ())) : Follows (remember change >>= rest) :=
  fun _ => safe_remember fun next _ => resumes next

theorem follows_pure {Result : Type} (result : Result) : Follows (pure result : AgentM Result) :=
  fun _ => safe_pure trivial

theorem follows_fail {Result : Type} (fault : Fault) : Follows (.fail fault : AgentM Result) :=
  fun _ => safe_fail fault

theorem follows_held : Follows held :=
  follows_recall fun _ => follows_ask fun _ => follows_pure _

/-- A stop changes nothing but memory. -/
theorem safe_stop (id : AttemptID) (outcome : AttemptOutcome) (world : World) :
    (stop id outcome).Safe conduct (fun _ next => SameBooks world next) world := by
  refine safe_recall fun held => ?_
  split
  · refine safe_ask fun stopped next same => ?_
    split
    · exact safe_remembered fun last still => same.trans still
    · exact safe_pure same
  · exact safe_pure ⟨rfl, rfl⟩

theorem follows_stop (id : AttemptID) (outcome : AttemptOutcome) : Follows (stop id outcome) :=
  fun world => (safe_stop id outcome world).weaken fun _ _ _ _ => trivial

theorem safe_abandon {id : AttemptID} {world : World} (unwaited : Unwaited world id) :
    (abandon id).Safe conduct (fun _ next => SameBooks world next) world := by
  refine safe_ask fun stopped next same => ?_
  split
  · refine safe_performed ⟨same.unwaited unwaited, nofun⟩ ⟨same.spoolDir, same.received⟩
  · exact safe_fail _

/-- A loop over bodies that leave the books alone leaves them alone. -/
theorem safe_forM {Item : Type} {items : List Item} {body : Item → AgentM Unit} {world : World}
    (each : ∀ item ∈ items, ∀ next, SameBooks world next →
      (body item).Safe conduct (fun _ last => SameBooks next last) next) {start : World}
    (same : SameBooks world start) :
    (forM items body : AgentM Unit).Safe conduct (fun _ last => SameBooks world last) start := by
  refine Program.Safe.settled fun current moved kept => ?_
  refine Program.Safe.forM (fun _ _ moved holds => moved ▸ holds) (fun item member state _ holds => ?_)
    kept (moved ▸ same)
  exact (each item member state holds).weaken fun _ last _ after => holds.trans after

/-- Only attempts of which no exit waits in the spool are abandoned. -/
theorem follows_heartbeat : Follows heartbeat := by
  refine follows_held.bind fun ids => follows_recall fun draining world => ?_
  refine safe_ask fun response asked _ => ?_
  cases response with
  | failed => exact safe_fail _
  | status code => exact safe_fail _
  | ok result =>
      refine safe_perform trivial fun _ clear => ?_
      refine (safe_forM (fun order _ next _ => safe_stop _ _ next) ⟨rfl, rfl⟩).bind fun _ next _ same => ?_
      refine (safe_forM (fun id member later moved => safe_abandon ?_) same).weaken fun _ _ _ _ => trivial
      exact moved.unwaited (clear id member)

theorem follows_enforceTimeout (id : AttemptID) (stopReq : Option AttemptOutcome) :
    Follows (enforceTimeout id stopReq) := by
  refine follows_recall fun spec => follows_recall fun started => ?_
  simp only
  split
  · refine follows_ask fun now => ?_
    split
    · exact follows_stop id _
    · exact follows_pure _
  · exact follows_pure _

theorem follows_spoolStatus (id : AttemptID) (stopReq : Option AttemptOutcome) (status : Status) :
    Follows (spoolStatus id stopReq status) := by
  have logs : ∀ line, Follows (spool id (logEvent line)) := fun line =>
    follows_spool id fun concluded => Bool.noConfusion concluded
  have exits : ∀ outcome, Follows (spool id (exitEvent outcome status.exitCode status.reason)) :=
    fun _ => follows_spool id fun _ => rfl
  refine (follows_forM fun line _ => logs line).bind fun _ => ?_
  split
  · simp only
    split
    · refine follows_ask fun uploaded => ?_
      split
      · exact follows_fail _
      · exact exits _
    · exact exits _
  · exact follows_pure _

theorem follows_poll : Follows poll := by
  refine follows_held.bind fun ids => follows_forM fun id _ => follows_recall fun stopReq => ?_
  refine (follows_enforceTimeout id stopReq).bind fun _ => follows_ask fun status => ?_
  cases status with
  | none => exact follows_fail _
  | some status => exact follows_spoolStatus id stopReq status

theorem follows_accept (dispatch : Service.Dispatch) : Follows (accept dispatch) := by
  intro world
  refine safe_read ?_
  simp only
  split
  · exact safe_fail _
  · refine safe_perform trivial fun _ _ => follows_ask (fun answer => ?_) _
    cases answer with
    | failed => exact follows_fail _
    | status code => exact follows_fail _
    | ok answer =>
        cases answer with
        | alreadyAcknowledged => exact follows_pure _
        | cancel => exact follows_spool _ fun _ => rfl
        | run =>
            refine follows_ask fun now => follows_remember (follows_ask fun started => ?_)
            cases started with
            | some error => exact follows_spool _ fun _ => rfl
            | none => exact follows_spool _ fun concluded => Bool.noConfusion concluded

theorem follows_claim : Follows claim := by
  refine follows_recall fun count world => safe_read ?_
  split
  · exact safe_pure trivial
  · refine safe_perform trivial fun _ _ => follows_ask (fun answer => ?_) _
    cases answer with
    | failed => exact follows_fail _
    | status code => exact follows_fail _
    | ok dispatches =>
        refine follows_forM fun dispatch _ => ?_
        exact Follows.bind (fun world => (follows_accept dispatch world).attempt) fun _ => follows_pure _

theorem follows_interruption : Follows interruption := by
  refine follows_ask fun looked => ?_
  split
  · exact follows_fail _
  · intro world
    refine safe_read ?_
    split
    · exact safe_pure trivial
    · refine follows_ask (fun interrupted => ?_) _
      split
      · refine follows_ask fun saved => ?_
        split
        · exact fun _ => safe_quietly (fun _ => ⟨rfl, rfl⟩) (safe_pure trivial)
        · exact follows_fail _
      · exact follows_pure _

theorem follows_step : Follows step := by
  refine follows_ask fun draining => follows_remember (follows_interruption.bind fun interrupted => ?_)
  have goes : Follows (do
      heartbeat
      poll
      flushSpool
      if ← recollect Memory.drain then pure () else claim) := by
    refine follows_heartbeat.bind fun _ => follows_poll.bind fun _ => follows_flushSpool.bind fun _ => ?_
    refine follows_recall fun drain => ?_
    split
    · exact follows_pure _
    · exact follows_claim
  split
  · refine follows_remember (follows_held.bind fun ids => ?_)
    exact (follows_forM fun id _ => follows_stop id _).bind fun _ => goes
  · exact goes

theorem follows_recover : Follows recover := by
  refine follows_remember (follows_ask fun listed => ?_)
  cases listed with
  | none => exact follows_fail _
  | some ids =>
      refine (follows_forM fun id _ => follows_ask fun now world => ?_).bind fun _ => follows_flushSpool
      exact safe_remembered fun _ _ => trivial

theorem follows_program (turn : Turn) : Follows turn.program := by
  cases turn with
  | recover => exact follows_recover
  | step => exact follows_step

end GpuBroker.Agent
