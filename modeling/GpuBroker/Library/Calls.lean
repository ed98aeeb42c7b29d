/-
This file is the component behind calls: a program whose accesses are calls, each
of which is a program of its own on the component.

The larger program makes a call in one access, and the call leaves the state it
comes to together with those it passed through. The rules say what a program on
the component owes, whatever others do to it.
-/
import GpuBroker.Library.Program

namespace GpuBroker.Library

namespace Contract

variable {State Label Error : Type}

/-- The contract of a program among others who do anything a relation allows: each of its accesses is as
another relation says. -/
def amid (rely : State → State → Prop) (refl : ∀ state, rely state state)
    (trans : ∀ {one two three}, rely one two → rely two three → rely one three)
    (owes : Option Label → State → State → Prop) : Contract State Label Error where
  rely := rely
  guarantee := owes
  invariant := fun _ => True
  allowed := fun _ _ => True
  raises := fun _ => True
  refl := refl
  trans := trans

/-- The contract of a program that is alone: each of its accesses is as a relation says. -/
def lone (owes : Option Label → State → State → Prop) : Contract State Label Error :=
  amid (fun before after => after = before) (fun _ => rfl) (fun first second => second.trans first) owes

end Contract

namespace Program

variable {State Label Error Result Other : Type} {contract : Contract State Label Error}

/-- The rule of consequence: a contract that counts on no more, and of which an access that keeps the other one's
side keeps the side too. -/
theorem Safe.under {one : Contract State Label Error} {program : Program State Label Error Result}
    {post : Result → State → Prop} {state : State} (safe : program.Safe one post state)
    (rely : ∀ before after, contract.rely before after → one.rely before after)
    (kept : ∀ state, contract.invariant state → one.invariant state)
    (allowed : ∀ label state, contract.allowed label state → one.allowed label state)
    (moves : ∀ label before after, contract.invariant before → one.invariant after →
      one.guarantee label before after → contract.invariant after ∧ contract.guarantee label before after)
    (raises : ∀ error, one.raises error → contract.raises error) : program.Safe contract post state := by
  induction program generalizing state with
  | done result => exact fun current moved invariant => safe current (rely _ _ moved) (kept _ invariant)
  | fail error => exact fun current moved invariant => raises _ (safe current (rely _ _ moved) (kept _ invariant))
  | access label action next inductionHypothesis =>
      intro current moved invariant permitted
      obtain ⟨left, owed, rest⟩ := safe current (rely _ _ moved) (kept _ invariant)
        fun written wrote => allowed _ _ (permitted written wrote)
      obtain ⟨still, mine⟩ := moves _ _ _ invariant left owed
      exact ⟨still, mine, inductionHypothesis _ rest⟩

/-- A program that owes less. -/
theorem Safe.relax {program : Program State Label Error Result} {post : Result → State → Prop} {state : State}
    {guarantee : Option Label → State → State → Prop}
    (safe : program.Safe { contract with guarantee } post state)
    (weaker : ∀ label before after, guarantee label before after → contract.guarantee label before after) :
    program.Safe contract post state :=
  safe.under (fun _ _ => id) (fun _ => id) (fun _ _ => id)
    (fun label before after _ kept owed => ⟨kept, weaker label before after owed⟩) fun _ => id

/-- What others leave and every access keeps holds when a program ends. -/
theorem Safe.carrying {holds : State → Prop} {program : Program State Label Error Result}
    {post : Result → State → Prop} {state : State} (safe : program.Safe contract post state)
    (stable : ∀ before after, contract.rely before after → holds before → holds after)
    (keeps : ∀ label before after, contract.guarantee label before after → holds before → holds after)
    (start : holds state) :
    program.Safe contract (fun result last => post result last ∧ holds last) state := by
  induction program generalizing state with
  | done result => exact fun last moved kept => ⟨safe last moved kept, stable _ _ moved start⟩
  | fail error => exact safe
  | access label action next inductionHypothesis =>
      intro current moved kept permitted
      obtain ⟨invariant, owed, rest⟩ := safe current moved kept permitted
      exact ⟨invariant, owed, inductionHypothesis _ rest (keeps _ _ _ owed (stable _ _ moved start))⟩

/-- The rule of the loop that collects: what the body establishes of an item and what it came to, and every
access keeps, holds in the end of each value for its item. -/
theorem Safe.mapM {Item : Type} {body : Item → Program State Label Error Other}
    {good : Item → Other → State → Prop} {items : List Item} {state : State}
    (stable : ∀ item value before after, contract.rely before after → good item value before →
      good item value after)
    (keeps : ∀ item value label before after, contract.guarantee label before after → good item value before →
      good item value after)
    (each : ∀ item ∈ items, ∀ state, contract.invariant state → (body item).Safe contract (good item) state)
    (kept : contract.invariant state) :
    (items.mapM body).Safe contract
      (fun values last => ∀ value ∈ values, ∃ item ∈ items, good item value last) state := by
  induction items generalizing state with
  | nil => exact fun _ _ _ _ member => absurd member List.not_mem_nil
  | cons item items inductionHypothesis =>
      rw [List.mapM_cons]
      refine (each item List.mem_cons_self state kept).bind fun value current invariant here => ?_
      have rest := inductionHypothesis (fun other member => each other (List.mem_cons_of_mem _ member)) invariant
      refine (rest.carrying (stable item value) (keeps item value) here).bind fun values last _ all => ?_
      refine fun later moved _ other member => ?_
      rcases List.mem_cons.mp member with rfl | inside
      · exact ⟨item, List.mem_cons_self, stable _ _ _ _ moved all.2⟩
      · obtain ⟨each, listed, holds⟩ := all.1 other inside
        exact ⟨each, List.mem_cons_of_mem _ listed, stable _ _ _ _ moved holds⟩

/-- The states a program passes through when it is run to its end, the last one included. -/
def passes : Program State Label Error Result → State → List State
  | access _ action next, state =>
      (action state).2 :: (next (action state).1).passes (action state).2
  | _, _ => []

/-- What a program that is alone comes to, and where it passes through, when what each access owes
composes. -/
theorem Safe.passing {owes : State → State → Prop} (refl : ∀ state, owes state state)
    (trans : ∀ {one two three}, owes one two → owes two three → owes one three)
    {program : Program State Label Error Result} {post : Result → State → Prop} {state : State}
    (safe : program.Safe (Contract.lone fun _ => owes) post state) :
    (∀ passed ∈ program.passes state, owes state passed) ∧ owes state (program.whole state).2 ∧
      ∀ result, (program.whole state).1 = .ok result → post result (program.whole state).2 := by
  induction program generalizing state with
  | done result =>
      refine ⟨fun _ member => (List.not_mem_nil member).elim, refl state, fun other same => ?_⟩
      cases same
      exact safe state rfl trivial
  | fail error => exact ⟨fun _ member => (List.not_mem_nil member).elim, refl state, fun _ same => nomatch same⟩
  | access label action next inductionHypothesis =>
      obtain ⟨_, owed, rest⟩ := safe state rfl trivial fun _ _ => trivial
      obtain ⟨passing, last, ends⟩ := inductionHypothesis _ rest
      refine ⟨fun passed member => ?_, trans owed last, ends⟩
      rcases List.mem_cons.mp member with rfl | later
      · exact owed
      · exact trans owed (passing passed later)

end Program

/-- A component behind calls: its state, how many calls were made, and the states the last one passed
through. -/
structure Called (State : Type) where
  now : State
  calls : Nat
  passed : List State

namespace Called

variable {State Label Error Result : Type}

/-- A component that was not called yet. -/
def fresh (state : State) : Called State := ⟨state, 0, []⟩

/-- A call. -/
def call (program : Program State Label Error Result) (component : Called State) :
    Except Error Result × Called State :=
  let after := program.whole component.now
  (after.1, ⟨after.2, component.calls + 1, program.passes component.now⟩)

end Called

end GpuBroker.Library
