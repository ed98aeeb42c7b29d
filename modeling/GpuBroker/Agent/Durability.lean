/-
This file is how durable the spool of an attempt is: events are passed to
`spool`, any append may be cut short by a crash, and now and then the messages of
what the control plane has accepted are dropped.

A file that is read back without an error, behind whose last line nothing torn
stands, takes the next line whole. So as long as no line is appended behind a torn
one and none is too long for the scanner, the file holds what it is owed, in order.
-/
import GpuBroker.Agent.Delivery
import Mathlib.Data.List.Forall2
import Mathlib.Data.String.Basic

namespace GpuBroker.Agent

open Library ControlPlane

/-! ### A journal -/

/-- What is done to the spool of an attempt: an event is passed to `spool`, or the messages of what was accepted are
dropped. -/
inductive Deed
  | pass (event : WorkerEvent)
  | compact

/-- Drop the messages of what a spool holds, as a report does that is accepted and does not end the attempt. -/
def dropMessages (id : AttemptID) : AgentM Unit := do
  match ← readSpool id with
  | some (first :: rest) => compactSpool id (first :: rest)
  | _ => pure ()

/-- The spool file of an attempt; one that is not there holds nothing. -/
def World.spoolFile (world : World) (id : AttemptID) : SpoolFile := (world.spoolDir.find id).getD .empty

/-- A world with the events for which `spool` returned no error, and with those of them that the spool file is to hold:
without an exit that was passed when the file held one, and without the messages that were dropped since. -/
structure Journal where
  world : World
  passed : List WorkerEvent
  owed : List WorkerEvent

/-- The event is a second exit, which `spool` takes for the first. -/
def Repeated (event : WorkerEvent) (held : List WorkerEvent) : Prop := event.kind = some .exit ∧ Exited held

instance (event : WorkerEvent) (held : List WorkerEvent) : Decidable (Repeated event held) :=
  inferInstanceAs (Decidable (_ ∧ _))

/-- Do a deed. Where `spool` returns an error, the append may have left anything up to the whole line. -/
def Journal.next (id : AttemptID) (journal : Journal) : Deed → Journal
  | .pass event =>
      match (spool id event).whole journal.world with
      | (.ok (), world) =>
          { world := world
            passed := journal.passed ++ [event]
            owed := if Repeated event (journal.world.events id) then journal.owed else journal.owed ++ [event] }
      | (.error _, world) => { journal with world := world }
  | .compact =>
      match (dropMessages id).whole journal.world with
      | (.ok (), world) => { journal with world := world, owed := journal.owed.map blank }
      | (.error _, world) => { journal with world := world }

/-- A journal after some deeds. -/
def Journal.after (id : AttemptID) (journal : Journal) (deeds : List Deed) : Journal :=
  deeds.foldl (Journal.next id) journal

/-- Nothing was passed yet. -/
def World.journal (world : World) : Journal := ⟨world, [], []⟩

/-- The event under the number and at the time `spool` gives it. -/
def World.stamped (world : World) (id : AttemptID) (event : WorkerEvent) : WorkerEvent :=
  { event with
    seq := (world.events id).length + 1
    time := event.time.or (some (world.tape world.asked).now) }

/-- What is appended is not written behind a torn line, and the lines that are written fit into the scanner's buffer. -/
def Deed.Clean (id : AttemptID) (world : World) : Deed → Prop
  | .pass event => ¬ Repeated event (world.events id) →
      (world.spoolFile id).rest = none ∧ world.lineBytes (world.stamped id event) < SpoolFile.maxTokenSize
  | .compact => ∀ event ∈ world.events id, world.lineBytes (blank event) < SpoolFile.maxTokenSize

instance (id : AttemptID) (world : World) (deed : Deed) : Decidable (deed.Clean id world) :=
  match deed with
  | .pass event => inferInstanceAs (Decidable (¬ Repeated event (world.events id) → _ ∧ _))
  | .compact => inferInstanceAs (Decidable (∀ event ∈ world.events id, _))

/-- Each deed is clean where it is done. -/
def Journal.Clean (id : AttemptID) : Journal → List Deed → Prop
  | _, [] => True
  | journal, deed :: deeds => deed.Clean id journal.world ∧ Journal.Clean id (journal.next id deed) deeds

/-- An event as it is found again: only its number and the time it had none are new. -/
def Stored (event found : WorkerEvent) : Prop :=
  found = { event with seq := found.seq, time := found.time } ∧ (event.time.isSome = true → found.time = event.time)

/-- The spool file can be read, and among the events that are read are these, in order. -/
def Holds (world : World) (id : AttemptID) (events : List WorkerEvent) : Prop :=
  ∃ read found, (world.spoolFile id).read = some read ∧ found.Sublist read ∧ List.Forall₂ Stored events found

/-! ### What a deed does -/

section

variable {world : World} {id : AttemptID} {event : WorkerEvent}

theorem read_iff {file : SpoolFile} {events : List WorkerEvent} :
    file.read = some events ↔ (∀ line ∈ file.scanned, line.bytes < SpoolFile.maxTokenSize) ∧ file.events = events := by
  unfold SpoolFile.read
  by_cases long : (file.scanned.any fun line => SpoolFile.maxTokenSize ≤ line.bytes) = true
  · rw [if_pos long]
    obtain ⟨line, member, large⟩ := List.any_eq_true.mp long
    refine ⟨nofun, fun both => ?_⟩
    exact absurd (both.1 line member) (not_lt.mpr (of_decide_eq_true large))
  · rw [if_neg long, Option.some_inj]
    have short : ∀ line ∈ file.scanned, line.bytes < SpoolFile.maxTokenSize := by
      intro line member
      by_contra large
      exact long (List.any_eq_true.mpr ⟨line, member, decide_eq_true (not_lt.mp large)⟩)
    exact ⟨fun same => ⟨short, same⟩, fun both => both.2⟩

/-- What is held goes on to be held where the file still holds what it did. -/
theorem Holds.more {after : World} {events more : List WorkerEvent} (holds : Holds world id events)
    (grown : (after.spoolFile id).read = some (world.events id ++ more)) : Holds after id events := by
  obtain ⟨read, found, readable, among, stored⟩ := holds
  refine ⟨_, found, grown, ?_, stored⟩
  rw [(read_iff.mp readable).2.symm] at among
  exact among.trans (List.sublist_append_left _ more)

end

end GpuBroker.Agent
