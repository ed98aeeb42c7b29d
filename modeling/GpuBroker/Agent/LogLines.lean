/-
This file says when the polls of the Kubernetes runtime report the lines of a log,
each once and whole.

A poll takes what it reads for whole lines and counts them, so a line in which a
read stops is reported as it is then, and never again. What a poll shows of a log
is the head that is read, without the newlines at its end.
-/
import GpuBroker.Agent.Kube

namespace GpuBroker.Agent.Kube

open Library ControlPlane

/-! ### What a poll shows of a log -/

/-- What a poll shows of the log; nothing where the Job is not found or nothing is read. -/
def Glimpse.text (glimpse : Glimpse) : Bytes :=
  match glimpse.job with
  | .found _ => trimRight (glimpse.read.getD [])
  | _ => []

/-- What the polls of an attempt show of its log, where they show anything. -/
def texts (id : AttemptID) (polls : List (AttemptID × Glimpse)) : List Bytes :=
  polls.filterMap fun poll => if poll.1 = id ∧ poll.2.text ≠ [] then some poll.2.text else none

/-- The lines that polls, of any attempts, report of one of them. -/
def Runtime.follow (id : AttemptID) : Runtime → List (AttemptID × Glimpse) → List Bytes
  | _, [] => []
  | runtime, (polled, glimpse) :: rest =>
      let (report, next) := runtime.poll polled glimpse
      (if polled = id then report.elim [] Report.logs else []) ++ next.follow id rest

/-- The polls of the attempt read of a log that grows to this: at each, its head as far as it is read. -/
def Shows (id : AttemptID) (final : Bytes) (polls : List (AttemptID × Glimpse)) : Prop :=
  ∀ poll ∈ polls, poll.1 = id → ∀ read, poll.2.read = some read →
    ∃ grown, grown <+: final ∧ read = grown.take limitBytes

/-- Each poll that shows more lines than those before stops at the end of a line, and some poll shows the whole log but
for a newline at its end. -/
def LogsWhole (id : AttemptID) (final : Bytes) (polls : List (AttemptID × Glimpse)) : Prop :=
  (∀ before text after, texts id polls = before ++ text :: after →
    (∀ earlier ∈ before, earlier.count newline < text.count newline) → Ended newline text final) ∧
  (final = [] ∨ ∃ text ∈ texts id polls, final = text ∨ final = text ++ [newline])

theorem trimRight_begins (text : Bytes) : trimRight text <+: text := List.rdropWhile_prefix _ _

/-- What is left without the newlines at the end does not end in one. -/
theorem remainder_trimRight {text : Bytes} (nonempty : trimRight text ≠ []) :
    remainder newline (trimRight text) ≠ [] := by
  intro none
  rcases remainder_eq_nil none with empty | ⟨front, ends⟩
  · exact nonempty empty
  · have last := List.rdropWhile_last_not (fun byte => decide (byte = newline)) text nonempty
    refine last (decide_eq_true ?_)
    show (trimRight text).getLast nonempty = newline
    rw [List.getLast_congr _ (by simp) ends, List.getLast_append_singleton]

/-- Lines are split off unless nothing is left. -/
theorem splitLines_trimRight {text : Bytes} : splitLines (trimRight text) = [[]] ↔ trimRight text = [] := by
  refine ⟨fun blank => ?_, fun none => by rw [none]; rfl⟩
  by_contra nonempty
  refine remainder_trimRight nonempty ?_
  have last := congrArg List.getLast? blank
  rw [splitLines, List.getLast?_concat] at last
  exact Option.some.inj last

/-! ### What the polls report -/

/-- A poll reports what it finds new in the log, if it finds the Job. -/
theorem poll_found {job : Job} {glimpse : Glimpse} (found : glimpse.job = .found job) (runtime : Runtime)
    (id : AttemptID) :
    (runtime.poll id glimpse).1.elim [] Report.logs = (runtime.newLogs id glimpse).1 ∧
      (runtime.poll id glimpse).2 = (runtime.newLogs id glimpse).2 := by
  unfold Runtime.poll
  rw [found]
  dsimp only
  split <;> exact ⟨rfl, rfl⟩

theorem newLogs_eq (runtime : Runtime) (id : AttemptID) (glimpse : Glimpse) :
    runtime.newLogs id glimpse =
      let shown := trimRight (glimpse.read.getD [])
      if shown = [] ∨ (splitLines shown).length ≤ runtime.logsSeen id then ([], runtime)
      else ((splitLines shown).drop (runtime.logsSeen id),
        { logsSeen := Function.update runtime.logsSeen id (splitLines shown).length }) := by
  unfold Runtime.newLogs
  cases glimpse.read with
  | none => rfl
  | some read =>
      dsimp only [Option.getD_some]
      by_cases none : trimRight read = []
      · rw [if_pos (splitLines_trimRight.mpr none), if_pos (Or.inl none)]
      · rw [if_neg fun blank => none (splitLines_trimRight.mp blank)]
        by_cases stale : (splitLines (trimRight read)).length ≤ runtime.logsSeen id
        · rw [if_pos stale, if_pos (Or.inr stale)]
        · rw [if_neg stale, if_neg (not_or.mpr ⟨none, stale⟩)]

/-- What a poll reports of the log and remembers of it, by what it shows. -/
theorem poll_eq (runtime : Runtime) (id : AttemptID) (glimpse : Glimpse) :
    ((runtime.poll id glimpse).1.elim [] Report.logs, (runtime.poll id glimpse).2) =
      if glimpse.text = [] ∨ (splitLines glimpse.text).length ≤ runtime.logsSeen id then ([], runtime)
      else ((splitLines glimpse.text).drop (runtime.logsSeen id),
        { logsSeen := Function.update runtime.logsSeen id (splitLines glimpse.text).length }) := by
  cases found : glimpse.job with
  | notFound =>
      have nothing : glimpse.text = [] := by rw [Glimpse.text, found]
      rw [if_pos (Or.inl nothing), Runtime.poll, found]
      rfl
  | error =>
      have nothing : glimpse.text = [] := by rw [Glimpse.text, found]
      rw [if_pos (Or.inl nothing), Runtime.poll, found]
      rfl
  | found job =>
      obtain ⟨logs, next⟩ := poll_found found runtime id
      have shown : glimpse.text = trimRight (glimpse.read.getD []) := by rw [Glimpse.text, found]
      rw [logs, next, shown]
      exact newLogs_eq runtime id glimpse

theorem followed_cons (seen : Nat) (text : Bytes) (rest : List Bytes) :
    followed newline seen (text :: rest) =
      if (splitLines text).length ≤ seen then followed newline seen rest
      else (splitLines text).drop seen ++ followed newline (splitLines text).length rest := rfl

/-- The polls of other attempts do not matter, and those of the attempt follow its log. -/
theorem follow_eq (id : AttemptID) :
    ∀ (polls : List (AttemptID × Glimpse)) (runtime : Runtime),
      runtime.follow id polls = followed newline (runtime.logsSeen id) (texts id polls)
  | [], _ => rfl
  | (polled, glimpse) :: rest, runtime => by
      have step := poll_eq runtime polled glimpse
      have shown : texts id ((polled, glimpse) :: rest) =
          if polled = id ∧ glimpse.text ≠ [] then glimpse.text :: texts id rest else texts id rest := by
        rw [texts, List.filterMap_cons]
        by_cases counts : polled = id ∧ glimpse.text ≠ []
        · rw [if_pos counts, if_pos counts]
          rfl
        · rw [if_neg counts, if_neg counts]
          rfl
      rw [Runtime.follow, shown]
      dsimp only
      rw [follow_eq id rest]
      by_cases stale : glimpse.text = [] ∨ (splitLines glimpse.text).length ≤ runtime.logsSeen polled
      · rw [if_pos stale] at step
        obtain ⟨logs, next⟩ := Prod.mk.inj step
        rw [logs, next, ite_self, List.nil_append]
        by_cases counts : polled = id ∧ glimpse.text ≠ []
        · obtain ⟨rfl, nonempty⟩ := counts
          rw [if_pos ⟨rfl, nonempty⟩, followed_cons, if_pos (stale.resolve_left nonempty)]
        · rw [if_neg counts]
      · rw [if_neg stale] at step
        obtain ⟨logs, next⟩ := Prod.mk.inj step
        obtain ⟨nonempty, more⟩ := not_or.mp stale
        rw [logs, next]
        dsimp only
        by_cases own : polled = id
        · subst own
          rw [if_pos rfl, if_pos ⟨rfl, nonempty⟩, followed_cons, if_neg more, Function.update_self]
        · rw [if_neg own, if_neg fun both => own both.1, List.nil_append, Function.update_of_ne (Ne.symm own)]

/-- What a poll shows of a log that grows to some bytes. -/
theorem shows_text {id : AttemptID} {final : Bytes} {polls : List (AttemptID × Glimpse)} (shows : Shows id final polls)
    {text : Bytes} (member : text ∈ texts id polls) : text <+: final ∧ remainder newline text ≠ [] := by
  obtain ⟨⟨polled, glimpse⟩, listed, some_shown⟩ := List.mem_filterMap.mp member
  split at some_shown
  · next counts =>
    obtain ⟨own, nonempty⟩ := counts
    cases some_shown
    unfold Glimpse.text at nonempty ⊢
    split at nonempty
    · refine ⟨(trimRight_begins _).trans ?_, remainder_trimRight nonempty⟩
      cases read : glimpse.read with
      | none => exact List.nil_prefix
      | some bytes =>
          obtain ⟨grown, grows, rfl⟩ := shows _ listed own bytes read
          exact (List.take_prefix _ _).trans grows
    · exact absurd rfl nonempty
  · cases some_shown

/-- The polls of an attempt whose lines were not counted yet report the lines of its log, each once and whole, if and
only if each that shows more lines than those before stops at the end of one and one of them shows the whole log but for
a newline at its end. -/
theorem logs_whole_iff (runtime : Runtime) (id : AttemptID) (unseen : runtime.logsSeen id = 0)
    (polls : List (AttemptID × Glimpse)) (final : Bytes) (shows : Shows id final polls) :
    runtime.follow id polls = allLines newline final ↔ LogsWhole id final polls := by
  have views : ∀ text ∈ texts id polls, text <+: final ∧ remainder newline text ≠ [] :=
    fun text member => shows_text shows member
  have whole := followed_iff views (Nat.zero_le (allLines newline final).length)
  rw [List.take_zero, List.nil_append] at whole
  rw [follow_eq, unseen, whole]
  refine and_congr ?_ (or_congr ?_ Iff.rfl)
  · exact forall₄_congr fun before text after split => ⟨fun stops => stops (Nat.zero_le _), fun stops _ => stops⟩
  · rw [eq_comm, List.length_eq_zero_iff, allLines_eq_nil]

/-- The bytes of a text of plain letters. -/
def plain (text : String) : Bytes := text.toList.map fun char => UInt8.ofNat char.toNat

/-- A poll of a Job that runs, or that is complete, and has one pod with a log. -/
def Glimpse.of (complete : Bool) (log : Bytes) : Glimpse where
  job := .found ⟨if complete then [⟨.complete, true, "", ""⟩] else [], 0, if complete then 0 else 1⟩
  logPods := some [⟨"pod", 0, "", false, false, []⟩]
  exitPods := none
  evictedPods := none
  log := fun _ count => some (log.take count)

/-- Two polls, of which the second finds the Job complete. -/
def twoPolls (first final : String) : List (AttemptID × Glimpse) :=
  [("att", .of false (plain first)), ("att", .of true (plain final))]

theorem twoPolls_shows {first final : String} (grows : plain first <+: plain final) :
    Shows "att" (plain final) (twoPolls first final) := by
  intro poll member _ read shown
  rcases List.mem_cons.mp member with rfl | last
  · exact ⟨plain first, grows, (Option.some.inj shown).symm⟩
  · rw [List.mem_singleton.mp last] at shown
    exact ⟨plain final, List.prefix_rfl, (Option.some.inj shown).symm⟩

/-- The first poll stops at the end of a line. -/
theorem logs_whole_two :
    Runtime.follow "att" ⟨fun _ => 0⟩ (twoPolls "step 1\n" "step 1\nstep 2\n") = [plain "step 1", plain "step 2"] := by
  let polls := twoPolls "step 1\n" "step 1\nstep 2\n"
  have ended : ∀ text ∈ texts "att" polls, Ended newline text (plain "step 1\nstep 2\n") := by decide +kernel
  have all : ∃ text ∈ texts "att" polls,
      plain "step 1\nstep 2\n" = text ∨ plain "step 1\nstep 2\n" = text ++ [newline] := by decide +kernel
  have lines : allLines newline (plain "step 1\nstep 2\n") = [plain "step 1", plain "step 2"] := by decide +kernel
  rw [← lines]
  refine (logs_whole_iff ⟨fun _ => 0⟩ "att" rfl polls _ (twoPolls_shows (by decide +kernel))).mpr ⟨?_, Or.inr all⟩
  intro before text after split _
  refine ended text ?_
  rw [split]
  exact List.mem_append_right before List.mem_cons_self

/-- The first poll stops within the second line, which is reported as it is then and never again. -/
theorem logs_torn :
    let polls := twoPolls "step 1\nst" "step 1\nstep 2\n"
    Shows "att" (plain "step 1\nstep 2\n") polls ∧
      Runtime.follow "att" ⟨fun _ => 0⟩ polls = [plain "step 1", plain "st"] ∧
      allLines newline (plain "step 1\nstep 2\n") = [plain "step 1", plain "step 2"] :=
  ⟨twoPolls_shows (by decide +kernel), by decide +kernel, by decide +kernel⟩

end GpuBroker.Agent.Kube
