/-
This file is the course of a program that nobody disturbs: what holds of every
state it passes through, what it comes to with a result, and what it leaves when
an error ends it.

A course says at once what a program leaves that is stopped anywhere and what
one leaves that is run to its end. A part that is safe under the contract of a
program that is alone keeps on its course whatever each of its accesses keeps.
-/
import GpuBroker.Library.Calls

namespace GpuBroker.Library

namespace Program

variable {State Label Error Result Other : Type}

/-- Every state of a program satisfies one predicate; with a result the last one satisfies another, and
after an error a third. -/
def Course (keeps : State → Prop) (post : Result → State → Prop) (fails : State → Prop) :
    Program State Label Error Result → State → Prop
  | done result, state => keeps state ∧ post result state
  | fail _, state => keeps state ∧ fails state
  | access _ action next, state =>
      keeps state ∧ (next (action state).1).Course keeps post fails (action state).2

variable {keeps fails : State → Prop} {post : Result → State → Prop} {state : State}

theorem Course.start {program : Program State Label Error Result}
    (course : program.Course keeps post fails state) : keeps state := by
  cases program with
  | done | fail | access => exact course.1

/-- The rule of composition: an error of the first part is one of the whole. -/
theorem Course.bind {first : Program State Label Error Other}
    {rest : Other → Program State Label Error Result} {middle : Other → State → Prop}
    (course : first.Course keeps middle fails state)
    (resume : ∀ value current, keeps current → middle value current →
      (rest value).Course keeps post fails current) : (first >>= rest).Course keeps post fails state := by
  induction first generalizing state with
  | done value => exact resume value state course.1 course.2
  | fail error => exact course
  | access label action next inductionHypothesis => exact ⟨course.1, inductionHypothesis _ course.2⟩

/-- The rule of an access that is no transaction. -/
theorem Course.quietly {action : State → Other × State} {rest : Other → Program State Label Error Result}
    (kept : keeps state) (resume : (rest (action state).1).Course keeps post fails (action state).2) :
    (Program.quietly action >>= rest).Course keeps post fails state :=
  ⟨kept, resume⟩

/-- The rule of a look at the state. -/
theorem Course.read {view : State → Other} {rest : Other → Program State Label Error Result}
    (kept : keeps state) (resume : (rest (view state)).Course keeps post fails state) :
    (Program.read view >>= rest).Course keeps post fails state :=
  ⟨kept, resume⟩

/-- A course that keeps more, comes to more and fails with more. -/
theorem Course.weaken {also ends : State → Prop} {weaker : Result → State → Prop}
    {program : Program State Label Error Result} (course : program.Course keeps post fails state)
    (less : ∀ current, keeps current → also current)
    (implies : ∀ result current, keeps current → post result current → weaker result current)
    (failing : ∀ current, keeps current → fails current → ends current) :
    program.Course also weaker ends state := by
  induction program generalizing state with
  | done result => exact ⟨less _ course.1, implies _ _ course.1 course.2⟩
  | fail error => exact ⟨less _ course.1, failing _ course.1 course.2⟩
  | access label action next inductionHypothesis =>
      exact ⟨less _ course.1, inductionHypothesis _ course.2⟩

/-- Both of two courses of a program. -/
theorem Course.both {also ends : State → Prop} {more : Result → State → Prop}
    {program : Program State Label Error Result} (first : program.Course keeps post fails state)
    (second : program.Course also more ends state) :
    program.Course (fun current => keeps current ∧ also current)
      (fun result current => post result current ∧ more result current)
      (fun current => fails current ∧ ends current) state := by
  induction program generalizing state with
  | done | fail => exact ⟨⟨first.1, second.1⟩, first.2, second.2⟩
  | access label action next inductionHypothesis =>
      exact ⟨⟨first.1, second.1⟩, inductionHypothesis _ first.2 second.2⟩

/-- The rule of the loop: what holds with a list ahead holds with its tail ahead after the body. -/
theorem Course.foldlM {Item : Type} {body : Result → Item → Program State Label Error Result}
    (ahead : List Item → State → Prop)
    (each : ∀ item items result current, keeps current → ahead (item :: items) current →
      (body result item).Course keeps (fun _ => ahead items) fails current)
    {items : List Item} {result : Result} (kept : keeps state) (start : ahead items state) :
    (items.foldlM body result).Course keeps (fun _ => ahead []) fails state := by
  induction items generalizing result state with
  | nil => exact ⟨kept, start⟩
  | cons item items inductionHypothesis =>
      rw [List.foldlM_cons]
      exact (each item items result state kept start).bind fun _ _ kept start =>
        inductionHypothesis kept start

/-- What a program leaves that is stopped anywhere. -/
theorem Course.run {program : Program State Label Error Result}
    (course : program.Course keeps post fails state) (length : Nat) :
    keeps (program.run length state).2 := by
  induction length generalizing program state with
  | zero => exact course.start
  | succ length inductionHypothesis =>
      cases program with
      | done | fail => exact inductionHypothesis course
      | access label action next => exact inductionHypothesis course.2

/-- What a program leaves that is run to its end. -/
theorem Course.whole {program : Program State Label Error Result}
    (course : program.Course keeps post fails state) :
    keeps (program.whole state).2 ∧
      (∀ result, (program.whole state).1 = .ok result → post result (program.whole state).2) ∧
      ∀ error, (program.whole state).1 = .error error → fails (program.whole state).2 := by
  induction program generalizing state with
  | done result =>
      refine ⟨course.1, fun other same => ?_, fun _ => nofun⟩
      cases same
      exact course.2
  | fail error => exact ⟨course.1, fun _ => nofun, fun _ _ => course.2⟩
  | access label action next inductionHypothesis => exact inductionHypothesis _ course.2

/-- The first part of a safe program is safe, and leaves the rest safe. -/
theorem Safe.split {contract : Contract State Label Error} {first : Program State Label Error Other}
    {rest : Other → Program State Label Error Result} (safe : (first >>= rest).Safe contract post state) :
    first.Safe contract (fun value current => (rest value).Safe contract post current) state := by
  induction first generalizing state with
  | done value => exact fun _ moved _ => Safe.moved safe moved
  | fail error => exact safe
  | access label action next inductionHypothesis =>
      intro current moved kept permitted
      obtain ⟨invariant, owed, later⟩ := safe current moved kept permitted
      exact ⟨invariant, owed, inductionHypothesis _ later⟩

/-- A program that is safe under the contract of one that is alone keeps on its course what each of its
accesses keeps. -/
theorem Safe.course {contract : Contract State Label Error} {holds : State → Prop}
    {program : Program State Label Error Result} (safe : program.Safe contract post state)
    (free : ∀ label state, contract.allowed label state)
    (each : ∀ label before after, contract.invariant before → contract.guarantee label before after →
      holds before → holds after)
    (kept : contract.invariant state) (start : holds state) :
    program.Course (fun current => contract.invariant current ∧ holds current) post (fun _ => True) state := by
  induction program generalizing state with
  | done result => exact ⟨⟨kept, start⟩, safe state (contract.refl _) kept⟩
  | fail error => exact ⟨⟨kept, start⟩, trivial⟩
  | access label action next inductionHypothesis =>
      obtain ⟨invariant, owed, rest⟩ := safe state (contract.refl _) kept fun _ _ => free _ _
      exact ⟨⟨kept, start⟩, inductionHypothesis _ rest invariant (each _ _ _ kept owed start)⟩

end Program

end GpuBroker.Library
