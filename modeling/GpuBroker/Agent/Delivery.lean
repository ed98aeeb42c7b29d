/-
This file is what becomes of a spooled event: whether the control plane has accepted
it when its message is dropped or its file deleted, and whether it has an exit event
when the attempt is forgotten.

Which act was made before which is read off the record of a run. An event that was
spooled was accepted or is still in its file as it was spooled; it was accepted if
the control plane holds one as new; and as an accepted report leaves out nothing
newer than that, all were accepted once it is answered.
-/
import GpuBroker.Agent.Conduct

namespace GpuBroker.Agent

open Library ControlPlane

/-! ### What was done before -/

/-- The event was spooled, and `spool` returned without an error. -/
def Spooled (past : List (Act × World)) (id : AttemptID) (event : WorkerEvent) : Prop :=
  ∃ world, (.append id event .synced, world) ∈ past

/-- The act is an append that is synced. -/
def Act.spools : Act → Bool
  | .append _ _ .synced => true
  | _ => false

/-- The event was in a report that the control plane accepted. -/
def Accepted (past : List (Act × World)) (id : AttemptID) (event : WorkerEvent) : Prop :=
  ∃ body answer world, (.report id body answer, world) ∈ past ∧ answer.accepted = true ∧ event ∈ body

/-- What must have been done before an act. A spooled event has a number of its own; what was spooled is
accepted before its message is dropped or its file deleted; and a spooled exit is accepted before its
attempt is forgotten, which when it is over there is. -/
def Justified (past : List (Act × World)) : Act → Prop
  | .append id event .synced => ∀ other, Spooled past id other → other.seq ≠ event.seq
  | .compact id _ | .remove id => ∀ event, Spooled past id event → Accepted past id event
  | .forget id concluded =>
      (∀ event, event.kind = some .exit → Spooled past id event → Accepted past id event) ∧
        (concluded = true → ∃ event, event.kind = some .exit ∧ Accepted past id event)
  | _ => True

/-- What becomes of the events along a record, which leads to a world: each act is justified by those
before it, and what was not accepted is on disk as it was spooled. -/
structure Delivered (record : List (Act × World)) (world : World) : Prop where
  justified : ∀ before act at_ after, record = before ++ (act, at_) :: after → Justified before act
  kept : ∀ id event, Spooled record id event → Accepted record id event ∨ event ∈ world.events id

theorem Spooled.of_snoc {past : List (Act × World)} {step : Act × World} {id : AttemptID}
    {event : WorkerEvent} (spooled : Spooled (past ++ [step]) id event) :
    Spooled past id event ∨ step.1 = .append id event .synced := by
  obtain ⟨world, member⟩ := spooled
  rcases List.mem_append.mp member with before | last
  · exact Or.inl ⟨world, before⟩
  · exact Or.inr (congrArg Prod.fst (List.mem_singleton.mp last)).symm

theorem Accepted.snoc {past : List (Act × World)} {id : AttemptID} {event : WorkerEvent}
    (accepted : Accepted past id event) (step : Act × World) : Accepted (past ++ [step]) id event := by
  obtain ⟨body, answer, world, member, yes, inside⟩ := accepted
  exact ⟨body, answer, world, List.mem_append_left _ member, yes, inside⟩

/-- What is kept along a run, beside the order of the files. -/
structure Tracked (past : List (Act × World)) (world : World) : Prop extends Delivered past world where
  /-- What is no newer than the newest event received was accepted. -/
  behind : ∀ id event, Spooled past id event → event.seq ≤ newest (world.received id) →
    Accepted past id event
  /-- A spooled event is counted in its file, or the file is gone and something was received. -/
  counted : ∀ id event, Spooled past id event →
    (world.spoolDir.find id).isSome = true ∧ event.seq ≤ (world.events id).length ∨
      world.spoolDir.find id = none ∧ world.received id ≠ []
  received : ∀ id, ∀ event ∈ world.received id, Accepted past id event

/-- Nothing was spooled or received. -/
structure World.Fresh (world : World) : Prop where
  unspooled : ∀ id, world.spoolDir.find id = none
  unheard : ∀ id, world.received id = []

theorem World.Fresh.orderly {world : World} (fresh : world.Fresh) : Orderly world := fun id _ found =>
  nomatch (fresh.unspooled id).symm.trans found

theorem World.Fresh.tracked {world : World} (fresh : world.Fresh) : Tracked [] world := by
  have unspooled : ∀ {id event}, ¬ Spooled [] id event := fun spooled => by
    obtain ⟨_, none⟩ := spooled
    cases none
  refine ⟨⟨fun before act at_ after whole => ?_, fun id event spooled => absurd spooled unspooled⟩,
    fun id event spooled => absurd spooled unspooled, fun id event spooled => absurd spooled unspooled,
    fun id event member => ?_⟩
  · simp at whole
  · rw [fresh.unheard id] at member
    cases member

theorem Tracked.quiet {past : List (Act × World)} {world next : World} (tracked : Tracked past world)
    (same : SameBooks world next) : Tracked past next := by
  refine ⟨⟨tracked.justified, fun id event spooled => ?_⟩, ?_, ?_, ?_⟩
  · rw [same.events]
    exact tracked.kept id event spooled
  · rw [same.received]
    exact tracked.behind
  · intro id event spooled
    rw [same.events, same.spoolDir, same.received]
    exact tracked.counted id event spooled
  · rw [same.received]
    exact tracked.received

/-! ### What an act keeps -/

section Acts

variable {past : List (Act × World)} {world : World} {act : Act}

theorem Tracked.justify (tracked : Tracked past world) (justified : Justified past act) :
    ∀ before other at_ after, past ++ [(act, world)] = before ++ (other, at_) :: after →
      Justified before other := by
  intro before other at_ after whole
  rcases List.eq_nil_or_concat after with rfl | ⟨front, last, rfl⟩
  · obtain ⟨rfl, same⟩ := List.append_inj' whole rfl
    cases same
    exact justified
  · rw [List.concat_eq_append, ← List.cons_append, ← List.append_assoc] at whole
    exact tracked.justified before other at_ front (List.append_inj' whole rfl).1

/-- All that was spooled is accepted once the control plane holds the newest event of the file. -/
theorem Tracked.all (tracked : Tracked past world) {id : AttemptID} {file : SpoolFile}
    (found : world.spoolDir.find id = some file)
    (told : (file.events.length : Int) ≤ newest (world.received id)) {event : WorkerEvent}
    (spooled : Spooled past id event) : Accepted past id event := by
  rcases tracked.counted id event spooled with ⟨_, inside⟩ | ⟨gone, _⟩
  · rw [events_found found] at inside
    exact tracked.behind id event spooled (inside.trans told)
  · exact nomatch gone.symm.trans found

/-- An act that spools nothing. -/
theorem Spooled.of_silent {step : Act × World} (silent : step.1.spools = false) {id : AttemptID}
    {event : WorkerEvent} (spooled : Spooled (past ++ [step]) id event) : Spooled past id event := by
  refine spooled.of_snoc.resolve_right fun same => ?_
  rw [same] at silent
  cases silent

/-- An act that changes nothing in the books. -/
theorem Tracked.stay (tracked : Tracked past world) {next : World} (same : SameBooks world next)
    (silent : act.spools = false) (justified : Justified past act) :
    Tracked (past ++ [(act, world)]) next := by
  have still := tracked.quiet same
  refine ⟨⟨tracked.justify justified, ?_⟩, ?_, ?_, ?_⟩
  · intro id event spooled
    exact (still.kept id event (spooled.of_silent silent)).imp_left fun accepted => accepted.snoc _
  · intro id event spooled told
    exact (still.behind id event (spooled.of_silent silent) told).snoc _
  · exact fun id event spooled => still.counted id event (spooled.of_silent silent)
  · exact fun id event member => (still.received id event member).snoc _

theorem events_write (world : World) (id other : AttemptID) (file : SpoolFile) :
    (world.write id file).events other = if other = id then file.events else world.events other := by
  unfold World.events
  rw [find_write]
  split <;> rfl

/-- An append is tracked: its number is new, and what was spooled before is still there. -/
theorem Tracked.append (tracked : Tracked past world) {id : AttemptID} {event : WorkerEvent} {sync : Sync}
    (orderly : Orderly world) (clear : Clear (.append id event sync) world) (opened : sync ≠ .unopened)
    (grounds : (Act.append id event sync).Grounds world) :
    Tracked (past ++ [(.append id event sync, world)]) ((Act.append id event sync).apply world) := by
  obtain ⟨whole, order⟩ := appendable orderly clear opened
  have earlier : ∀ other, Spooled past id other → other.seq ≤ (world.events id).length := by
    intro other spooled
    rcases tracked.counted id other spooled with ⟨_, inside⟩ | ⟨gone, heard⟩
    · exact inside
    · have unheard : world.received id = [] := by
        cases sync with
        | unopened => exact absurd rfl opened
        | cut | synced =>
            simp only [Clear, gone] at clear
            exact clear
      exact absurd unheard heard
  have after := SpoolFile.events_append whole event (world.lineBytes event) sync
  rw [apply_append opened]
  set file := ((world.spoolDir.find id).getD .empty).append event (world.lineBytes event) sync with wrote
  have grown : world.events id <+: file.events := by
    rcases after with same | more
    · exact same ▸ List.prefix_rfl
    · exact more ▸ List.prefix_append _ _
  have fresh : ∀ {other : WorkerEvent}, (.append id event sync : Act) = .append id other .synced →
      other = event ∧ file.events = world.events id ++ [event] := by
    intro other same
    cases same
    exact ⟨rfl, SpoolFile.events_append_synced whole event _⟩
  refine ⟨⟨tracked.justify ?_, ?_⟩, ?_, ?_, ?_⟩
  · cases sync with
    | unopened | cut => trivial
    | synced =>
        intro other spooled same
        have before := earlier other spooled
        rw [same, grounds.1] at before
        omega
  · intro other one spooled
    rw [events_write]
    rcases spooled.of_snoc with before | now
    · refine (tracked.kept other one before).imp (fun accepted => accepted.snoc _) fun member => ?_
      split
      · next mine =>
        subst mine
        exact grown.subset member
      · exact member
    · right
      obtain rfl : id = other := by injection now
      obtain ⟨rfl, more⟩ := fresh now
      rw [if_pos rfl, more]
      exact List.mem_append_right _ (List.mem_singleton_self _)
  · intro other one spooled told
    rcases spooled.of_snoc with before | now
    · exact (tracked.behind other one before told).snoc _
    · obtain rfl : id = other := by injection now
      obtain ⟨rfl, _⟩ := fresh now
      have ahead := order.ahead
      rw [received_write, grounds.1] at told
      omega
  · intro other one spooled
    rw [find_write, events_write, received_write]
    rcases spooled.of_snoc with before | now
    · split
      · next mine =>
        subst mine
        have length := grown.length_le
        exact Or.inl ⟨rfl, (earlier one before).trans (by omega)⟩
      · exact tracked.counted other one before
    · obtain rfl : id = other := by injection now
      obtain ⟨rfl, more⟩ := fresh now
      rw [if_pos rfl, if_pos rfl, more, grounds.1]
      exact Or.inl ⟨rfl, by simp⟩
  · exact fun other one member => (tracked.received other one member).snoc _

/-- A report that is accepted is tracked: it brings all that was not. -/
theorem Tracked.report (tracked : Tracked past world) {id : AttemptID} {answer : Answer}
    (orderly : Orderly world) (clear : Clear (.report id (batch (world.events id)) answer) world)
    (nonempty : world.events id ≠ []) (accepted : answer.accepted = true) :
    Tracked (past ++ [(.report id (batch (world.events id)) answer, world)])
      ((Act.report id (batch (world.events id)) answer).apply world) := by
  set body := batch (world.events id) with whole
  obtain ⟨file, found, same⟩ := found_of_events nonempty
  have numbered : Numbered (world.events id) := same ▸ (orderly id file found).numbered
  obtain ⟨fits, short⟩ := clear.1 accepted
  have silent : (Act.report id body answer).spools = false := rfl
  have now : ∀ {event}, event ∈ body → Accepted (past ++ [(.report id body answer, world)]) id event :=
    fun member =>
      ⟨body, answer, world, List.mem_append_right _ (List.mem_singleton_self _), accepted, member⟩
  have brought : ∀ event, Spooled past id event →
      Accepted (past ++ [(.report id body answer, world)]) id event := by
    intro event spooled
    by_cases told : event.seq ≤ newest (world.received id)
    · exact (tracked.behind id event spooled told).snoc _
    · rcases tracked.kept id event spooled with before | here
      · exact before.snoc _
      · have inside := numbered.mem_batch here (by omega)
        rw [sent_short (short event here)] at inside
        exact now inside
  refine ⟨⟨tracked.justify trivial, ?_⟩, ?_, ?_, ?_⟩
  · intro other event spooled
    rw [events_report]
    exact (tracked.kept other event (spooled.of_silent silent)).imp_left fun before => before.snoc _
  · intro other event spooled told
    have before := spooled.of_silent silent
    rw [received_report] at told
    split at told
    · next mine =>
      obtain ⟨_, rfl⟩ := mine
      exact brought event before
    · exact (tracked.behind other event before told).snoc _
  · intro other event spooled
    rw [events_report, spoolDir_report, received_report]
    refine (tracked.counted other event (spooled.of_silent silent)).imp_right fun gone => ⟨gone.1, ?_⟩
    split
    · exact List.append_ne_nil_of_left_ne_nil gone.2 _
    · exact gone.2
  · intro other event member
    rw [received_report] at member
    split at member
    · next mine =>
      obtain ⟨_, rfl⟩ := mine
      rcases List.mem_append.mp member with before | inside
      · exact (tracked.received other event before).snoc _
      · exact now inside
    · exact (tracked.received other event member).snoc _

/-- Dropping the messages is tracked: they were all accepted. -/
theorem Tracked.compact (tracked : Tracked past world) {id : AttemptID} {events : List WorkerEvent}
    (grounds : (Act.compact id events).Grounds world) :
    Tracked (past ++ [(.compact id events, world)]) ((Act.compact id events).apply world) := by
  obtain ⟨rfl, nonempty, _, told⟩ := grounds
  obtain ⟨file, found, same⟩ := found_of_events nonempty
  have all : ∀ event, Spooled past id event → Accepted past id event := fun event spooled =>
    tracked.all found (same ▸ told) spooled
  have silent : (Act.compact id (world.events id)).spools = false := rfl
  refine ⟨⟨tracked.justify all, ?_⟩, ?_, ?_, ?_⟩
  · intro other event spooled
    have before := spooled.of_silent silent
    rw [Act.apply, events_write]
    split
    · next mine =>
      subst mine
      exact Or.inl ((all event before).snoc _)
    · exact (tracked.kept other event before).imp_left fun accepted => accepted.snoc _
  · intro other event spooled below
    exact (tracked.behind other event (spooled.of_silent silent) below).snoc _
  · intro other event spooled
    rw [Act.apply, events_write, find_write, received_write]
    have before := tracked.counted other event (spooled.of_silent silent)
    split
    · next mine =>
      subst mine
      rw [SpoolFile.events_of, List.length_map]
      refine Or.inl ⟨rfl, ?_⟩
      rcases before with ⟨_, inside⟩ | ⟨gone, _⟩
      · exact inside
      · rw [found] at gone
        cases gone
    · exact before
  · exact fun other event member => (tracked.received other event member).snoc _

/-- Deleting a file is tracked: all that was spooled was accepted, and something was received. -/
theorem Tracked.remove (tracked : Tracked past world) {id : AttemptID}
    (grounds : (Act.remove id).Grounds world) :
    Tracked (past ++ [(.remove id, world)]) ((Act.remove id).apply world) := by
  obtain ⟨nonempty, told⟩ := grounds
  obtain ⟨file, here, same⟩ := found_of_events nonempty
  have all : ∀ event, Spooled past id event → Accepted past id event := fun event spooled =>
    tracked.all here (same ▸ told) spooled
  have heard : world.received id ≠ [] := by
    intro unheard
    rw [unheard] at told
    exact nonempty (List.length_eq_zero_iff.mp (Int.natCast_nonpos_iff.mp told))
  have silent : (Act.remove id).spools = false := rfl
  have found : ∀ other, ((Act.remove id).apply world).spoolDir.find other =
      if other = id then none else world.spoolDir.find other := Files.find_remove world.spoolDir id
  refine ⟨⟨tracked.justify all, ?_⟩, ?_, ?_, ?_⟩
  · intro other event spooled
    have before := spooled.of_silent silent
    by_cases mine : other = id
    · subst mine
      exact Or.inl ((all event before).snoc _)
    · unfold World.events
      rw [found, if_neg mine]
      exact (tracked.kept other event before).imp_left fun accepted => accepted.snoc _
  · intro other event spooled below
    exact (tracked.behind other event (spooled.of_silent silent) below).snoc _
  · intro other event spooled
    unfold World.events
    rw [found]
    split
    · next mine =>
      subst mine
      exact Or.inr ⟨rfl, heard⟩
    · exact tracked.counted other event (spooled.of_silent silent)
  · exact fun other event inside => (tracked.received other event inside).snoc _

/-- One act of the agent is tracked. -/
theorem Tracked.step (tracked : Tracked past world) (orderly : Orderly world) (clear : Clear act world)
    (grounds : act.Grounds world) : Tracked (past ++ [(act, world)]) (act.apply world) := by
  cases act with
  | beat | claim | ack => exact tracked.stay ⟨rfl, rfl⟩ rfl trivial
  | append id event sync =>
      by_cases opened : sync = .unopened
      · subst opened
        exact tracked.stay ⟨rfl, rfl⟩ rfl trivial
      · exact tracked.append orderly clear opened grounds
  | report id body answer =>
      obtain ⟨nonempty, rfl⟩ := grounds
      by_cases accepted : answer.accepted = true
      · exact tracked.report orderly clear nonempty accepted
      · have same : (Act.report id (batch (world.events id)) answer).apply world = world := if_neg accepted
        rw [same]
        exact tracked.stay ⟨rfl, rfl⟩ rfl trivial
  | compact id events => exact tracked.compact grounds
  | remove id => exact tracked.remove grounds
  | forget id concluded =>
      obtain ⟨unwaited, exited⟩ := grounds
      refine tracked.stay ⟨rfl, rfl⟩ rfl ⟨fun event exit spooled => ?_, fun isOver => ?_⟩
      · rcases tracked.kept id event spooled with accepted | here
        · exact accepted
        · exact tracked.behind id event spooled (unwaited event here exit)
      · obtain ⟨exit, member, isExit⟩ := exited isOver
        exact ⟨exit, isExit, tracked.received id exit member⟩

end Acts

/-! ### Delivery -/

/-- The answers of a quiet node, on which one attempt is running. -/
def Reading.calm : Reading where
  now := 0
  sync := .synced
  saved := true
  answer := ⟨.ok (), true, fun _ => rfl⟩
  heartbeat := .ok ⟨[], [], []⟩
  claim := .ok []
  ack := .ok .run
  stopped := true
  start := none
  status := some ⟨false, none, none, "", ["line"], false⟩
  listed := some ["att"]
  draining := false
  looked := true
  interrupted := false
  uploaded := true
  order := ⟨id, fun _ => .refl _⟩

/-- A node with room for one attempt, and nothing on it yet. An encoded log event with a number of three
digits is sixty-five bytes longer than its line. -/
def World.node (tape : Nat → Reading) : World where
  config := ⟨"sim", 1, fun _ _ _ _ => "", fun _ _ _ _ _ => true⟩
  memory := .new
  spoolDir := .empty
  marker := false
  received := fun _ => []
  lineBytes := fun event => 65 + event.message.utf8ByteSize
  tape := tape
  asked := 0

theorem World.node_fresh (tape : Nat → Reading) : (World.node tape).Fresh := ⟨fun _ => rfl, fun _ => rfl⟩

/-- A node on which the answer to the first report is lost, and the attempt ends in the end. -/
def World.outage : World :=
  .node fun asked =>
    if asked = 11 then { Reading.calm with answer := ⟨.failed, true, nofun⟩ }
    else if asked < 30 then .calm
    else { Reading.calm with status := some ⟨true, some .succeeded, some 0, "exit 0", [], false⟩ }

/-- In a run in which nothing is written behind a torn line nor into a new file for an attempt of which
the control plane has heard, each accepted report leaves out nothing newer than the newest the control
plane holds and cuts no message, and an attempt is disowned only when all of its spool was received and
taken back only while no exit of it waits there: each spooled event has a number of its own, is accepted
before its message is dropped or its file deleted, and is on disk as it was spooled until it is accepted,
and the exit is accepted before the attempt is forgotten. -/
theorem events_delivered (start : World) (fresh : start.Fresh) (turns : List (Turn × Nat))
    (clear : Program.AllAllowed Clear (programs turns) start) :
    Delivered (Program.record (programs turns) start) (Program.sequence (programs turns) start) := by
  have keeps : Program.Keeps conduct Tracked := by
    refine ⟨fun past before after _ same tracked => tracked.quiet same, ?_⟩
    rintro past act before after orderly clear ⟨grounds, rfl⟩ tracked
    exact tracked.step orderly clear grounds
  have follows : ∀ entry ∈ programs turns, ∀ state, conduct.invariant state →
      entry.1.Safe conduct (fun _ _ => True) state := by
    intro entry member state _
    obtain ⟨turn, _, rfl⟩ := List.mem_map.mp member
    exact follows_program turn.1 state
  exact (Program.Safe.sequence_history keeps follows fresh.orderly clear fresh.tracked).toDelivered

/-- The process dies after its second append and before the report of it; the next one reports both. -/
theorem events_delivered_outage :
    let turns := [(.recover, 10), (.step, 100), (.step, 20), (.recover, 100), (.step, 100)]
    let last := Program.sequence (programs turns) World.outage
    Delivered (Program.record (programs turns) World.outage) last ∧ last.spoolDir.paths = [] ∧
      (last.received "att").map WorkerEvent.seq = [1, 1, 2, 1, 2, 3] :=
  ⟨events_delivered World.outage (World.node_fresh _) _ (by decide +kernel), by decide +kernel,
    by decide +kernel⟩

/-! ### A burst -/

/-- Each look at the attempt finds so many new lines. -/
def Reading.burst (count : Nat) : Reading :=
  { Reading.calm with status := some ⟨false, none, none, "", List.replicate count "line", false⟩ }

/-- The log event with a number. -/
def numberedLog (number : Nat) : WorkerEvent := { logEvent "line" with seq := number + 1, time := some 0 }

/-- The spool file after so many lines. -/
def burstFile (world : World) (lines : Nat) : SpoolFile :=
  .of world.lineBytes ((List.range lines).map numberedLog)

/-- The process goes on as it was. -/
def World.SameProcess (world next : World) : Prop :=
  next.memory = world.memory ∧ next.config = world.config

/-- So many lines were spooled, and nothing else. -/
structure Bursting (count lines : Nat) (world : World) : Prop where
  tape : world.tape = fun _ => .burst count
  bytes : world.lineBytes = fun event => 65 + event.message.utf8ByteSize
  rows : world.spoolDir.table.rows = if lines = 0 then [] else [("att", burstFile world lines)]

section Ends

variable {Value Result : Type} {world last : World} {result : Result} {made : List (Act × World)}

theorem ends_pure (result : Result) : (pure result : AgentM Result).Ends world result world [] := ⟨rfl, rfl⟩

theorem ends_read {view : World → Value} {rest : Value → AgentM Result}
    (resumes : (rest (view world)).Ends world result last made) :
    (Program.read view >>= rest).Ends world result last made := ⟨resumes.comes, resumes.makes⟩

theorem ends_ask {question : Reading → Value} {rest : Value → AgentM Result}
    (resumes : (rest (question (world.tape world.asked))).Ends { world with asked := world.asked + 1 } result
      last made) :
    (ask question >>= rest).Ends world result last made := ⟨resumes.comes, resumes.makes⟩

theorem ends_remember {change : Memory → Memory} {rest : Unit → AgentM Result}
    (resumes : (rest ()).Ends { world with memory := change world.memory } result last made) :
    (remember change >>= rest).Ends world result last made := ⟨resumes.comes, resumes.makes⟩

theorem ends_perform {act : Act} {rest : Unit → AgentM Result}
    (resumes : (rest ()).Ends (act.apply world) result last made) :
    (perform act >>= rest).Ends world result last ((act, world) :: made) :=
  ⟨resumes.comes, congrArg (List.cons _) resumes.makes⟩

/-- What is made of a first part that makes nothing. -/
theorem ends_quietly {first : AgentM Value} {rest : Value → AgentM Result} {value : Value} {middle : World}
    (begins : first.Ends world value middle []) (resumes : (rest value).Ends middle result last made) :
    (first >>= rest).Ends world result last made := begins.bind resumes

theorem ends_single {Item : Type} {item : Item} {body : Item → AgentM Unit}
    (ends : (body item).Ends world () last made) :
    (forM [item] body : AgentM Unit).Ends world () last made := by
  rw [← List.append_nil made]
  exact ends.bind (ends_pure ())

end Ends

theorem readable_of {bytes : WorkerEvent → Nat} {events : List WorkerEvent}
    (short : ∀ event ∈ events, bytes event < SpoolFile.maxTokenSize) :
    (SpoolFile.of bytes events).read = some events := by
  unfold SpoolFile.read
  rw [if_neg, SpoolFile.events_of]
  simp only [SpoolFile.scanned, SpoolFile.of, Option.toList_none, List.append_nil, List.any_map,
    List.any_eq_true, Function.comp_apply, decide_eq_true_eq, not_exists, not_and, not_le]
  exact short

theorem Bursting.file {count lines : Nat} {world : World} (bursting : Bursting count lines world) :
    (world.spoolDir.find "att").getD .empty = burstFile world lines := by
  unfold Files.find Table.find
  rw [bursting.rows]
  split
  · next none =>
    rw [none]
    rfl
  · rfl

theorem Bursting.readable {count lines : Nat} {world : World} (bursting : Bursting count lines world) :
    ((world.spoolDir.find "att").getD .empty).read = some ((List.range lines).map numberedLog) := by
  rw [bursting.file]
  refine readable_of fun event member => ?_
  obtain ⟨number, _, rfl⟩ := List.mem_map.mp member
  rw [bursting.bytes]
  show 65 + "line".utf8ByteSize < _
  decide

/-- One more line is spooled. -/
theorem Bursting.spool {count lines : Nat} {world : World} (bursting : Bursting count lines world) :
    ∃ next at_, (Agent.spool "att" (logEvent "line")).Ends world () next
        [(.append "att" (numberedLog lines) .synced, at_)] ∧ Bursting count (lines + 1) next ∧
      world.SameProcess next := by
  have now : ∀ index, world.tape index = .burst count := fun index => congrFun bursting.tape index
  let asked : World := { world with asked := world.asked + 2 }
  refine ⟨(Act.append "att" (numberedLog lines) .synced).apply asked, asked, ?_,
    ⟨bursting.tape, bursting.bytes, ?_⟩, rfl, rfl⟩
  · refine ends_read ?_
    rw [bursting.readable]
    refine ends_ask (ends_ask ?_)
    simp only [now, List.length_map, List.length_range]
    exact ends_perform (ends_pure ())
  · have grown : ((world.spoolDir.find "att").getD .empty).append (numberedLog lines)
        (world.lineBytes (numberedLog lines)) .synced = burstFile world (lines + 1) := by
      rw [bursting.file]
      simp [burstFile, List.range_succ, SpoolFile.append, SpoolFile.of, Line.behind]
    show (world.spoolDir.table.put ("att", _)).rows = _
    rw [grown, if_neg (Nat.succ_ne_zero lines)]
    show world.spoolDir.table.rows.filter (fun row => !decide (row.1 = "att")) ++ _ = _
    rw [bursting.rows]
    split
    · rfl
    · rfl

theorem Bursting.spools {count lines : Nat} {world : World} (bursting : Bursting count lines world)
    (more : Nat) :
    ∃ next made, (forM (List.replicate more "line") fun line => Agent.spool "att" (logEvent line) :
        AgentM Unit).Ends world () next made ∧ Bursting count (lines + more) next ∧
      world.SameProcess next ∧
      (∀ number < more, ∃ at_, (.append "att" (numberedLog (lines + number)) .synced, at_) ∈ made) ∧
        ∀ step ∈ made, ∃ event, step.1 = .append "att" event .synced := by
  induction more generalizing lines world with
  | zero =>
      exact ⟨world, [], ends_pure (), bursting, ⟨rfl, rfl⟩,
        fun _ below => absurd below (Nat.not_lt_zero _), fun _ none => absurd none List.not_mem_nil⟩
  | succ more inductionHypothesis =>
      obtain ⟨next, at_, first, grown, same⟩ := bursting.spool
      obtain ⟨last, made, rest, full, still, all, only⟩ := inductionHypothesis grown
      have length : lines + 1 + more = lines + (more + 1) := by omega
      refine ⟨last, (.append "att" (numberedLog lines) .synced, at_) :: made, ?_, length ▸ full,
        ⟨still.1.trans same.1, still.2.trans same.2⟩, ?_, ?_⟩
      · rw [List.replicate_succ, List.forM_cons]
        exact first.bind rest
      · intro number below
        cases number with
        | zero => exact ⟨at_, List.mem_cons_self⟩
        | succ number =>
            obtain ⟨later, member⟩ := all number (Nat.lt_of_succ_lt_succ below)
            refine ⟨later, List.mem_cons_of_mem _ ?_⟩
            rwa [Nat.add_assoc, Nat.add_comm 1] at member
      · intro step member
        rcases List.mem_cons.mp member with rfl | later
        · exact ⟨_, rfl⟩
        · exact only step later

/-- The report of the spool: the first line is not in it, and its message is dropped. -/
theorem Bursting.flush {count lines : Nat} {world : World} (bursting : Bursting count lines world)
    (nonempty : 0 < lines) :
    ∃ next body answer one two, flushSpool.Ends world () next
        [(.report "att" body answer, one), (.compact "att" ((List.range lines).map numberedLog), two)] ∧
      body = batch ((List.range lines).map numberedLog) ∧ world.SameProcess next ∧
        next.events "att" = ((List.range lines).map numberedLog).map blank := by
  have now : ∀ index, world.tape index = .burst count := fun index => congrFun bursting.tape index
  have paths : world.spoolDir.paths = ["att"] := by
    unfold Files.paths
    rw [bursting.rows, if_neg (Nat.pos_iff_ne_zero.mp nonempty)]
    rfl
  obtain ⟨first, rest, split⟩ := List.exists_cons_of_ne_nil
    (show (List.range lines).map numberedLog ≠ [] by simpa using Nat.pos_iff_ne_zero.mp nonempty)
  have goesOn : terminal (first :: rest) = false := by
    rw [← split]
    refine List.any_eq_false.mpr fun event member => ?_
    obtain ⟨number, _, rfl⟩ := List.mem_map.mp member
    exact Bool.false_ne_true
  let answer : Answer := ⟨.ok (), true, fun _ => rfl⟩
  let one : World := { world with asked := world.asked + 1 }
  let heard := (Act.report "att" (batch (first :: rest)) answer).apply one
  let two : World := { heard with asked := heard.asked + 1 }
  have reports : (flushFile "att").Ends world () ((Act.compact "att" (first :: rest)).apply two)
      [(.report "att" (batch (first :: rest)) answer, one), (.compact "att" (first :: rest), two)] := by
    refine ends_read ?_
    rw [bursting.readable, split]
    refine ends_ask ?_
    rw [now]
    refine ends_perform ?_
    show (if terminal (first :: rest) then finish "att" true
      else compactSpool "att" (first :: rest)).Ends heard _ _ _
    rw [goesOn]
    refine ends_ask ?_
    show (if (world.tape _).saved then _ else _ : AgentM Unit).Ends _ _ _ _
    rw [now]
    exact ends_perform (ends_pure ())
  refine ⟨(Act.compact "att" (first :: rest)).apply two, _, answer, one, two, ?_, rfl, ⟨rfl, rfl⟩, ?_⟩
  · refine ends_read ?_
    rw [paths, split]
    exact reports.bind (ends_pure ())
  · rw [split, Act.apply, events_write, if_pos rfl, SpoolFile.events_of]

/-- The run in which one look at an attempt finds so many lines. -/
theorem burst_ends (count : Nat) (nonempty : 0 < count) :
    ∃ (one two : Nat) (beat : Act × World) (logs : List (Act × World)) (answer : Answer)
        (at_ last_ : World),
      let start := World.node fun _ => .burst count
      let events := (List.range count).map numberedLog
      let turns := [(.recover, one), (.step, two)]
      Program.record (programs turns) start =
          beat :: (logs ++ [(.report "att" (batch events) answer, at_), (.compact "att" events, last_)]) ∧
        (∃ ids draining response, beat.1 = .beat ids draining response) ∧
        (∃ at_, (.append "att" (numberedLog 0) .synced, at_) ∈ logs) ∧
        (∀ step ∈ logs, ∃ event, step.1 = .append "att" event .synced) ∧
        (Program.sequence (programs turns) start).events "att" = events.map blank := by
  let start := World.node fun _ => .burst count
  let began := (Agent.recover.whole start).2
  have recovers : Agent.recover.Ends start () began [] := ⟨rfl, rfl⟩
  let ready := { began with asked := began.asked + 3, memory := { began.memory with drain := false } }
  let held : World := { ready with asked := ready.asked + 2 }
  let beats : World := { held with asked := held.asked + 1 }
  let looks : World := { beats with asked := beats.asked + 1 }
  have bursting : Bursting count 0 looks := ⟨rfl, rfl, rfl⟩
  obtain ⟨spooled, logs, spools, full, same, all, only⟩ := bursting.spools count
  rw [Nat.zero_add] at full
  obtain ⟨last, body, answer, one, two, reports, rfl, still, after⟩ := full.flush nonempty
  have polls : poll.Ends held () spooled logs := by
    have visits : Agent.held.Ends held ["att"] beats [] := ⟨rfl, rfl⟩
    have timely : (enforceTimeout "att" none).Ends beats () beats [] := ⟨rfl, rfl⟩
    refine ends_quietly visits (ends_single (ends_read (ends_quietly timely (ends_ask ?_))))
    rw [← List.append_nil logs]
    exact spools.bind (ends_pure ())
  have idle : (do if ← recollect Memory.drain then pure () else claim : AgentM Unit).Ends last () last [] := by
    refine ends_read ?_
    rw [show last.memory.drain = false from congrArg Memory.drain (still.1.trans same.1)]
    refine ends_read (ends_read ?_)
    rw [still.1.trans same.1, still.2.trans same.2]
    exact ends_pure ()
  have steps : Agent.step.Ends began () last ((.beat ["att"] false ⟨[], [], []⟩, held) :: (logs ++
      [(.report "att" (batch ((List.range count).map numberedLog)) answer, one),
        (.compact "att" ((List.range count).map numberedLog), two)])) := by
    have stays : interruption.Ends { ready with asked := began.asked + 1 } false ready [] := ⟨rfl, rfl⟩
    have beating : heartbeat.Ends ready () held [(.beat ["att"] false ⟨[], [], []⟩, held)] := ⟨rfl, rfl⟩
    refine ends_ask (ends_remember (ends_quietly stays ?_))
    show (do heartbeat; poll; flushSpool; if ← recollect Memory.drain then pure () else claim : AgentM Unit).Ends
      ready () last ([_] ++ (logs ++ ([_, _] ++ [])))
    exact beating.bind (polls.bind (reports.bind idle))
  obtain ⟨first, made, left⟩ := recovers.reached
  obtain ⟨second, also, right⟩ := steps.reached
  refine ⟨first, second, (.beat ["att"] false ⟨[], [], []⟩, held), logs, answer, one, two, ?_,
    ⟨_, _, _, rfl⟩, ?_, only, ?_⟩
  · show Program.trace first Agent.recover start ++
      (Program.trace second Agent.step (Program.run first Agent.recover start).2 ++ []) = _
    rw [made, left, also, List.append_nil]
    rfl
  · exact Nat.zero_add 0 ▸ all 0 nonempty
  · show World.events (Program.run second Agent.step (Program.run first Agent.recover start).2).2 "att" = _
    rw [left, right]
    exact after

theorem numbered_logs (count : Nat) : Numbered ((List.range count).map numberedLog) := by
  intro index event found
  rw [List.getElem?_map] at found
  obtain ⟨number, here, rfl⟩ := Option.map_eq_some_iff.mp found
  obtain ⟨_, rfl⟩ := List.getElem?_eq_some_iff.mp here
  rw [List.getElem_range]
  rfl

/-- A look that finds more than five hundred lines: the first is not reported, and its message is
dropped. -/
theorem burst_loses (count : Nat) (large : maxBatch < count) :
    ∃ one two : Nat,
      let start := World.node fun _ => .burst count
      let turns := [(.recover, one), (.step, two)]
      ¬ Delivered (Program.record (programs turns) start) (Program.sequence (programs turns) start) := by
  obtain ⟨one, two, beat, logs, answer, at_, last_, record, beats, ⟨when_, spooled⟩, only, left⟩ :=
    burst_ends count (Nat.zero_lt_of_lt large)
  refine ⟨one, two, fun delivered => ?_⟩
  have first : Spooled _ "att" (numberedLog 0) :=
    ⟨when_, record ▸ List.mem_cons_of_mem _ (List.mem_append_left _ spooled)⟩
  rcases delivered.kept "att" _ first with ⟨body, answered, moment, member, _, inside⟩ | here
  · rw [record] at member
    have reported : body = batch ((List.range count).map numberedLog) := by
      rcases List.mem_cons.mp member with same | later
      · obtain ⟨_, _, _, isBeat⟩ := beats
        rw [← same] at isBeat
        cases isBeat
      · rcases List.mem_append.mp later with log | last
        · obtain ⟨_, isAppend⟩ := only _ log
          cases isAppend
        · rcases List.mem_cons.mp last with same | compacted
          · cases same
            rfl
          · cases List.mem_singleton.mp compacted
    have late := (numbered_logs count).late (reported ▸ inside)
    rw [List.length_map, List.length_range] at late
    have seq : (numberedLog 0).seq = 1 := rfl
    omega
  · rw [left] at here
    obtain ⟨kept, _, same⟩ := List.mem_map.mp here
    have message : "" = "line" := congrArg WorkerEvent.message same
    exact absurd message (by decide)

/-- Five hundred and one lines. -/
theorem events_undelivered :
    ∃ one two : Nat,
      let start := World.node fun _ => .burst 501
      let turns := [(.recover, one), (.step, two)]
      ¬ Delivered (Program.record (programs turns) start) (Program.sequence (programs turns) start) :=
  burst_loses 501 (by decide)

end GpuBroker.Agent
