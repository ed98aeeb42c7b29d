/-
This file is passes over a list that thread a state: each item is turned into an
output against the state its predecessors left.

A meter reads a level off the state that some outputs draw on. An output may draw
only what the level holds at its turn, so all of a pass together draw no more
than the level held at the start.
-/
import Mathlib.Algebra.Order.Ring.Int
import Mathlib.Algebra.BigOperators.Group.List.Basic

namespace GpuBroker.Library

variable {State Item Output : Type}

/-- The outputs of a pass. -/
def outputs (step : State → Item → Output × State) : List Item → State → List Output
  | [], _ => []
  | item :: rest, state => (step state item).1 :: outputs step rest (step state item).2

/-- The state a pass leaves. -/
def passed (step : State → Item → Output × State) : List Item → State → State
  | [], state => state
  | item :: rest, state => passed step rest (step state item).2

theorem outputs_append (step : State → Item → Output × State) (one two : List Item) (state : State) :
    outputs step (one ++ two) state = outputs step one state ++ outputs step two (passed step one state) := by
  induction one generalizing state with
  | nil => rfl
  | cons item rest inductionHypothesis =>
      simp only [List.cons_append, outputs, passed, inductionHypothesis]

/-- A pass has one output for each item. -/
theorem length_outputs (step : State → Item → Output × State) (items : List Item) (state : State) :
    (outputs step items state).length = items.length := by
  induction items generalizing state with
  | nil => rfl
  | cons item rest inductionHypothesis =>
      simp only [outputs, List.length_cons, inductionHypothesis]

/-- What every step keeps, a pass keeps. -/
theorem passed_keeps {step : State → Item → Output × State} {keeps : State → Prop}
    {items : List Item} (each : ∀ item ∈ items, ∀ state, keeps state → keeps (step state item).2)
    {state : State} (start : keeps state) : keeps (passed step items state) := by
  induction items generalizing state with
  | nil => exact start
  | cons item rest inductionHypothesis =>
      exact inductionHypothesis (fun other member => each other (List.mem_cons_of_mem item member))
        (each item (List.mem_cons_self) state start)

/-- An item and its output come from one step, against the state its predecessors left. -/
theorem outputs_pair {step : State → Item → Output × State} {items : List Item} {state : State}
    {item : Item} {output : Output} (member : (item, output) ∈ items.zip (outputs step items state)) :
    ∃ before after, items = before ++ item :: after ∧
      output = (step (passed step before state) item).1 := by
  induction items generalizing state with
  | nil => simp at member
  | cons first rest inductionHypothesis =>
      simp only [outputs, List.zip_cons_cons, List.mem_cons, Prod.mk.injEq] at member
      rcases member with ⟨rfl, rfl⟩ | later
      · exact ⟨[], rest, rfl, rfl⟩
      · obtain ⟨before, after, rfl, same⟩ := inductionHypothesis later
        exact ⟨first :: before, after, rfl, same⟩

/-- Every output comes from one step, against the state its predecessors left. -/
theorem mem_outputs {step : State → Item → Output × State} {items : List Item} {state : State}
    {output : Output} (member : output ∈ outputs step items state) :
    ∃ before item after, items = before ++ item :: after ∧
      output = (step (passed step before state) item).1 := by
  induction items generalizing state with
  | nil => cases member
  | cons first rest inductionHypothesis =>
      rcases List.mem_cons.mp member with rfl | later
      · exact ⟨[], first, rest, rfl, rfl⟩
      · obtain ⟨before, item, after, rfl, same⟩ := inductionHypothesis later
        exact ⟨first :: before, item, after, rfl, same⟩

/-- Each item has the output of its step, against the state its predecessors left. -/
theorem outputs_at (step : State → Item → Output × State) (before : List Item) (item : Item)
    (after : List Item) (state : State) :
    (item, (step (passed step before state) item).1) ∈
      (before ++ item :: after).zip (outputs step (before ++ item :: after) state) := by
  induction before generalizing state with
  | nil => exact List.mem_cons_self
  | cons first rest inductionHypothesis =>
      exact List.mem_cons_of_mem _ (inductionHypothesis (step state first).2)

/-- A pass leaves what its steps leave, whatever they put out. -/
theorem passed_congr {Other : Type} {step : State → Item → Output × State}
    {other : State → Item → Other × State}
    (same : ∀ state item, (step state item).2 = (other state item).2) (items : List Item)
    (state : State) : passed step items state = passed other items state := by
  induction items generalizing state with
  | nil => rfl
  | cons item rest inductionHypothesis =>
      simp only [passed, same, inductionHypothesis]

/-- A pass over images is a pass of the step after the map. -/
theorem passed_map {Image : Type} (step : State → Image → Output × State) (image : Item → Image)
    (items : List Item) (state : State) :
    passed step (items.map image) state = passed (fun state item => step state (image item)) items state := by
  induction items generalizing state with
  | nil => rfl
  | cons item rest inductionHypothesis => exact inductionHypothesis (step state (image item)).2

/-- A pass leaves what a pass over some of its items leaves, where the others leave everything as it
is. -/
theorem passed_filter {step : State → Item → Output × State} {keeps : State → Prop}
    {items : List Item} (keep : Item → Bool)
    (each : ∀ item ∈ items, ∀ state, keeps state → keeps (step state item).2)
    (still : ∀ item ∈ items, keep item = false → ∀ state, keeps state → (step state item).2 = state)
    {state : State} (start : keeps state) :
    passed step (items.filter keep) state = passed step items state := by
  induction items generalizing state with
  | nil => rfl
  | cons item rest inductionHypothesis =>
      have later := @inductionHypothesis
        (fun other member => each other (List.mem_cons_of_mem item member))
        (fun other member => still other (List.mem_cons_of_mem item member))
      cases kept : keep item with
      | true =>
          rw [List.filter_cons_of_pos kept]
          exact later (each item List.mem_cons_self state start)
      | false =>
          rw [List.filter_cons_of_neg (by rw [kept]; exact Bool.false_ne_true), later start, passed,
            still item List.mem_cons_self kept state start]

/-- The first outputs of a pass are those of a pass over the first items. -/
theorem outputs_front {step : State → Item → Output × State} {items : List Item} {state : State}
    {front back : List (Item × Output)}
    (split : items.zip (outputs step items state) = front ++ back) :
    ∃ one two, items = one ++ two ∧ front = one.zip (outputs step one state) := by
  induction items generalizing state front with
  | nil =>
      obtain ⟨rfl, _⟩ := List.append_eq_nil_iff.mp split.symm
      exact ⟨[], [], rfl, rfl⟩
  | cons first rest inductionHypothesis =>
      cases front with
      | nil => exact ⟨[], first :: rest, rfl, rfl⟩
      | cons pair others =>
          simp only [outputs, List.zip_cons_cons, List.cons_append, List.cons.injEq] at split
          obtain ⟨rfl, later⟩ := split
          obtain ⟨one, two, rfl, rfl⟩ := inductionHypothesis later
          exact ⟨first :: one, two, rfl, rfl⟩

/-- What a pass draws: the amounts of the outputs that draw. -/
def drawn (draws : Item → Output → Bool) (amount : Item → Output → Int)
    (pairs : List (Item × Output)) : Int :=
  ((pairs.filter fun pair => draws pair.1 pair.2).map fun pair => amount pair.1 pair.2).sum

theorem drawn_cons (draws : Item → Output → Bool) (amount : Item → Output → Int) (item : Item)
    (output : Output) (pairs : List (Item × Output)) :
    drawn draws amount ((item, output) :: pairs) =
      (if draws item output then amount item output else 0) + drawn draws amount pairs := by
  unfold drawn
  cases takes : draws item output <;> simp [takes]

/-- Nothing is drawn where no output draws. -/
theorem drawn_none {draws : Item → Output → Bool} {amount : Item → Output → Int}
    {pairs : List (Item × Output)} (none : ¬ ∃ pair ∈ pairs, draws pair.1 pair.2 = true) :
    drawn draws amount pairs = 0 := by
  unfold drawn
  rw [List.filter_eq_nil_iff.mpr fun pair member takes => none ⟨pair, member, takes⟩]
  rfl

/-- A level some outputs draw on, while a property of the state lasts. -/
structure Meter (step : State → Item → Output × State) (items : List Item) (lasts : State → Prop)
    (level : State → Int) (draws : Item → Output → Bool) (amount : Item → Output → Int) :
    Prop where
  last : ∀ item ∈ items, ∀ state, lasts state → lasts (step state item).2
  within : ∀ item ∈ items, ∀ state, lasts state → draws item (step state item).1 = true →
    amount item (step state item).1 ≤ level state
  drop : ∀ item ∈ items, ∀ state, lasts state → draws item (step state item).1 = true →
    level (step state item).2 = level state - amount item (step state item).1
  still : ∀ item ∈ items, ∀ state, lasts state → draws item (step state item).1 = false →
    level (step state item).2 = level state

namespace Meter

variable {step : State → Item → Output × State} {items : List Item} {lasts : State → Prop}
  {level : State → Int} {draws : Item → Output → Bool} {amount : Item → Output → Int}

theorem rest {item : Item} (meter : Meter step (item :: items) lasts level draws amount) :
    Meter step items lasts level draws amount where
  last other member := meter.last other (List.mem_cons_of_mem item member)
  within other member := meter.within other (List.mem_cons_of_mem item member)
  drop other member := meter.drop other (List.mem_cons_of_mem item member)
  still other member := meter.still other (List.mem_cons_of_mem item member)

/-- The level after a pass is what the pass left of it. -/
theorem level_passed (meter : Meter step items lasts level draws amount) {state : State}
    (start : lasts state) :
    level (passed step items state) =
      level state - drawn draws amount (items.zip (outputs step items state)) := by
  induction items generalizing state with
  | nil => simp [passed, drawn]
  | cons item others inductionHypothesis =>
      have head : item ∈ item :: others := List.mem_cons_self
      have tail := inductionHypothesis meter.rest (meter.last item head state start)
      simp only [passed, outputs, List.zip_cons_cons, drawn_cons]
      rw [tail]
      cases takes : draws item (step state item).1 with
      | true =>
          rw [meter.drop item head state start takes, if_pos rfl]
          omega
      | false =>
          rw [meter.still item head state start takes, if_neg Bool.false_ne_true]
          omega

/-- A pass that draws at all draws no more than the level held. -/
theorem drawn_le (meter : Meter step items lasts level draws amount) {state : State}
    (start : lasts state)
    (some_draws : ∃ pair ∈ items.zip (outputs step items state), draws pair.1 pair.2 = true) :
    drawn draws amount (items.zip (outputs step items state)) ≤ level state := by
  -- after the last draw the level is not negative, and then it stays
  have remains : 0 ≤ level (passed step items state) := by
    induction items generalizing state with
    | nil =>
        obtain ⟨pair, member, _⟩ := some_draws
        simp at member
    | cons item others inductionHypothesis =>
        have head : item ∈ item :: others := List.mem_cons_self
        have next := meter.last item head state start
        by_cases later : ∃ pair ∈ others.zip (outputs step others (step state item).2),
            draws pair.1 pair.2 = true
        · exact inductionHypothesis meter.rest next later
        · obtain ⟨pair, member, takes⟩ := some_draws
          simp only [outputs, List.zip_cons_cons, List.mem_cons] at member
          rcases member with rfl | member
          · have within := meter.within item head state start takes
            have dropped := meter.drop item head state start takes
            have rest := meter.rest.level_passed next
            rw [drawn_none later] at rest
            simp only [passed]
            omega
          · exact absurd ⟨pair, member, takes⟩ later
  have left := meter.level_passed start
  omega

/-- A level that is not negative is not passed by any first part of a pass. -/
theorem front_le (meter : Meter step items lasts level draws amount) {state : State}
    (start : lasts state) (nonneg : 0 ≤ level state) {front back : List (Item × Output)}
    (split : items.zip (outputs step items state) = front ++ back) :
    drawn draws amount front ≤ level state := by
  obtain ⟨one, two, rfl, rfl⟩ := outputs_front split
  have first : Meter step one lasts level draws amount :=
    ⟨fun item member => meter.last item (List.mem_append_left two member),
      fun item member => meter.within item (List.mem_append_left two member),
      fun item member => meter.drop item (List.mem_append_left two member),
      fun item member => meter.still item (List.mem_append_left two member)⟩
  have each : ∀ item ∈ one, ∀ state, lasts state ∧ 0 ≤ level state →
      lasts (step state item).2 ∧ 0 ≤ level (step state item).2 := by
    rintro item member state ⟨lasting, level_⟩
    refine ⟨first.last item member state lasting, ?_⟩
    cases takes : draws item (step state item).1 with
    | true =>
        have within := first.within item member state lasting takes
        have dropped := first.drop item member state lasting takes
        omega
    | false =>
        rw [first.still item member state lasting takes]
        exact level_
  have remains := (@passed_keeps _ _ _ step (fun state => lasts state ∧ 0 ≤ level state) one each
    state ⟨start, nonneg⟩).2
  have left := first.level_passed start
  omega

end Meter

end GpuBroker.Library
