/-
This file is the spool of the worker agent: for each attempt a file of events, one
to a line, each of which is on disk under its sequence number before it is sent.

A line that a crash or a failed write tears is left without its end, and what is
appended next then shares that line with it. A file is read line by line; a line
that is not an event is skipped, and a line too long for the scanner makes the whole
file unreadable.
-/
import GpuBroker.ControlPlane.Service

namespace GpuBroker.Agent

open Library ControlPlane

/-! ### Files of events -/

/-- A line of a spool file: what it is decoded to, if it is an event, and its length without the newline. -/
structure Line where
  event : Option WorkerEvent
  bytes : Nat
  deriving DecidableEq

/-- A spool file: its lines, and what stands after the last newline, if anything does. -/
structure SpoolFile where
  lines : List Line
  rest : Option Line
  deriving DecidableEq

/-- What becomes of an append: the file is not opened; so many bytes of the line and its newline are
written, and then the write or the sync fails or the process dies; or the line is written and synced. -/
inductive Sync
  | unopened | cut (bytes : Nat) | synced
  deriving DecidableEq

/-- An unterminated line and what is written behind it are one line, which is no event. -/
def Line.behind (line : Line) : Option Line → Line
  | none => line
  | some torn => ⟨none, torn.bytes + line.bytes⟩

namespace SpoolFile

/-- A file that was just created. -/
def empty : SpoolFile := ⟨[], none⟩

/-- The lines the scanner finds. -/
def scanned (file : SpoolFile) : List Line := file.lines ++ file.rest.toList

/-- The events of the lines that are events. -/
def events (file : SpoolFile) : List WorkerEvent := file.scanned.filterMap Line.event

/-- The longest token the scanner is given room for. -/
def maxTokenSize : Nat := 1048576

/-- What `readSpool` finds: the events, unless a line does not fit into the scanner's buffer. -/
def read (file : SpoolFile) : Option (List WorkerEvent) :=
  if file.scanned.any fun line => maxTokenSize ≤ line.bytes then none else some file.events

/-- Append an event whose line has a length. -/
def append (file : SpoolFile) (event : WorkerEvent) (bytes : Nat) : Sync → SpoolFile
  | .unopened => file
  | .synced => { lines := file.lines ++ [Line.behind ⟨some event, bytes⟩ file.rest], rest := none }
  | .cut written =>
      if written = 0 then file
      else if written ≤ bytes then
        { file with
          rest := some (Line.behind ⟨if written = bytes then some event else none, written⟩ file.rest) }
      else { lines := file.lines ++ [Line.behind ⟨some event, bytes⟩ file.rest], rest := none }

/-- A file that holds events and nothing else. -/
def of (bytes : WorkerEvent → Nat) (events : List WorkerEvent) : SpoolFile :=
  ⟨events.map fun event => ⟨some event, bytes event⟩, none⟩

theorem read_eq {file : SpoolFile} {events : List WorkerEvent} (readable : file.read = some events) :
    events = file.events := by
  unfold read at readable
  split at readable
  · cases readable
  · exact (Option.some.inj readable).symm

@[simp] theorem events_of (bytes : WorkerEvent → Nat) (events : List WorkerEvent) :
    (of bytes events).events = events := by
  unfold SpoolFile.events scanned of
  rw [Option.toList_none, List.append_nil, List.filterMap_map]
  exact List.filterMap_some

/-- Behind a finished line, an append adds its event or nothing. -/
theorem events_append {file : SpoolFile} (whole : file.rest = none) (event : WorkerEvent) (bytes : Nat)
    (sync : Sync) :
    (file.append event bytes sync).events = file.events ∨
      (file.append event bytes sync).events = file.events ++ [event] := by
  cases sync with
  | unopened => exact Or.inl rfl
  | synced =>
      right
      simp [append, SpoolFile.events, scanned, whole, Line.behind]
  | cut written =>
      rw [append]
      split
      · exact Or.inl rfl
      · split
        · by_cases all : written = bytes
          · right
            simp [SpoolFile.events, scanned, whole, Line.behind, all]
          · left
            simp [SpoolFile.events, scanned, whole, Line.behind, all]
        · right
          simp [SpoolFile.events, scanned, whole, Line.behind]

/-- Behind a finished line, an append that is synced adds its event. -/
theorem events_append_synced {file : SpoolFile} (whole : file.rest = none) (event : WorkerEvent)
    (bytes : Nat) : (file.append event bytes .synced).events = file.events ++ [event] := by
  simp [append, SpoolFile.events, scanned, whole, Line.behind]

end SpoolFile

/-! ### What is sent -/

/-- The characters that fit into so many bytes. Of a character that fits in part, each byte is encoded as
a replacement character of its own. -/
def clip : Nat → List Char → List Char
  | _, [] => []
  | room, char :: rest =>
      if char.utf8Size ≤ room then char :: clip (room - char.utf8Size) rest
      else List.replicate room '\uFFFD'

/-- The longest message the control plane accepts. -/
def maxMessage : Nat := 16384

/-- An event as it is sent: its message is cut to what the control plane accepts. -/
def sent (event : WorkerEvent) : WorkerEvent :=
  { event with
    message :=
      if maxMessage < event.message.utf8ByteSize then String.ofList (clip maxMessage event.message.toList)
      else event.message }

/-- The most events the control plane accepts in a report. -/
def maxBatch : Nat := 500

/-- The events of a report: of those of a spool, the newest that fit into one. -/
def batch (events : List WorkerEvent) : List WorkerEvent :=
  let body := events.map sent
  if maxBatch < body.length then body.drop (body.length - maxBatch) else body

/-- An event without its message. -/
def blank (event : WorkerEvent) : WorkerEvent := { event with message := "" }

/-- One of the events has an outcome, so that the attempt is over. -/
def terminal (events : List WorkerEvent) : Bool := events.any fun event => event.outcome.isSome

theorem sent_short {event : WorkerEvent} (short : event.message.utf8ByteSize ≤ maxMessage) :
    sent event = event := by
  unfold sent
  rw [if_neg (not_lt.mpr short)]

@[simp] theorem sent_seq (event : WorkerEvent) : (sent event).seq = event.seq := rfl

theorem batch_eq (events : List WorkerEvent) :
    batch events = (events.map sent).drop (events.length - maxBatch) := by
  show (if maxBatch < (events.map sent).length then _ else _) = _
  rw [List.length_map]
  split
  · rfl
  · next few => rw [Nat.sub_eq_zero_of_le (not_lt.mp few), List.drop_zero]

/-- What is sent is of the spool. -/
theorem of_mem_batch {events : List WorkerEvent} {event : WorkerEvent} (member : event ∈ batch events) :
    ∃ kept ∈ events, event = sent kept := by
  rw [batch_eq] at member
  obtain ⟨kept, among, rfl⟩ := List.mem_map.mp (List.mem_of_mem_drop member)
  exact ⟨kept, among, rfl⟩

/-! ### Numbers -/

/-- The events are numbered from one. -/
def Numbered (events : List WorkerEvent) : Prop :=
  ∀ (index : Nat) (event : WorkerEvent), events[index]? = some event → event.seq = index + 1

theorem Numbered.nil : Numbered [] := fun _ _ none => nomatch List.getElem?_nil.symm.trans none

theorem Numbered.snoc {events : List WorkerEvent} {event : WorkerEvent} (numbered : Numbered events)
    (next : event.seq = events.length + 1) : Numbered (events ++ [event]) := by
  intro index other found
  rw [List.getElem?_append] at found
  split at found
  · exact numbered index other found
  · next late =>
    rw [List.getElem?_singleton] at found
    split at found
    · next first =>
      cases found
      rw [next, le_antisymm (Nat.sub_eq_zero_iff_le.mp first) (not_lt.mp late)]
    · cases found

theorem Numbered.map {events : List WorkerEvent} (numbered : Numbered events)
    {change : WorkerEvent → WorkerEvent} (same : ∀ event, (change event).seq = event.seq) :
    Numbered (events.map change) := by
  intro index event found
  rw [List.getElem?_map] at found
  obtain ⟨kept, here, rfl⟩ := Option.map_eq_some_iff.mp found
  rw [same]
  exact numbered index kept here

theorem Numbered.le {events : List WorkerEvent} (numbered : Numbered events) {event : WorkerEvent}
    (member : event ∈ events) : event.seq ≤ events.length := by
  obtain ⟨index, inside, rfl⟩ := List.mem_iff_getElem.mp member
  rw [numbered index _ (List.getElem?_eq_getElem inside)]
  omega

/-- An event that is not among those left out is sent. -/
theorem Numbered.mem_batch {events : List WorkerEvent} (numbered : Numbered events) {event : WorkerEvent}
    (member : event ∈ events) (late : (events.length : Int) < event.seq + maxBatch) :
    sent event ∈ batch events := by
  obtain ⟨index, inside, rfl⟩ := List.mem_iff_getElem.mp member
  rw [numbered index _ (List.getElem?_eq_getElem inside)] at late
  rw [batch_eq, List.mem_drop_iff_getElem]
  have after : events.length - maxBatch ≤ index := by omega
  refine ⟨index - (events.length - maxBatch), ?_, ?_⟩
  · rw [List.length_map]
    omega
  · simp only [List.getElem_map, Nat.add_sub_of_le after]

/-- Only the newest events are sent. -/
theorem Numbered.late {events : List WorkerEvent} (numbered : Numbered events) {event : WorkerEvent}
    (member : event ∈ batch events) : (events.length : Int) < event.seq + maxBatch := by
  rw [batch_eq, List.mem_drop_iff_getElem] at member
  obtain ⟨index, inside, rfl⟩ := member
  rw [List.length_map] at inside
  have kept : index + (events.length - maxBatch) < events.length := inside
  rw [List.getElem_map, sent_seq,
    numbered (events.length - maxBatch + index) _ (List.getElem?_eq_getElem (by omega))]
  omega

/-- The newest event is sent. -/
theorem Numbered.batch_newest {events : List WorkerEvent} (numbered : Numbered events)
    (nonempty : events ≠ []) : ∃ event ∈ batch events, event.seq = events.length := by
  have positive := List.length_pos_iff.mpr nonempty
  have last := numbered (events.length - 1) (events.getLast nonempty) (by
    rw [List.getLast_eq_getElem, List.getElem?_eq_getElem])
  have seq : (events.getLast nonempty).seq = events.length := by
    rw [last]
    omega
  have limit : 0 < maxBatch := by decide
  exact ⟨_, numbered.mem_batch (List.getLast_mem nonempty) (by omega), seq⟩

end GpuBroker.Agent
