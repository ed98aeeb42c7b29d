/-
This file is the atomic transaction: a computation over a state that either
finishes with a result and a new state, or fails and leaves the state as it was.

A body is written in the state-and-exception monad; `commit` runs it and undoes
a failed one. The lemmas read a body that finished backwards, one statement at
a time, so that a caller learns which reads succeeded, which guards held and
which state was written without unfolding the monad. `Keeps` is the rule for
loops: what every statement of a body preserves, the body preserves.
-/
import Mathlib.Logic.Relation

namespace GpuBroker.Library

/-- A transaction body over a state. -/
abbrev Transaction (State Error Result : Type) := StateT State (Except Error) Result

namespace Transaction

variable {State Error Result Other : Type}

/-- Run a body; a failed one leaves the state unchanged. -/
def commit (body : Transaction State Error Result) (state : State) :
    Except Error Result × State :=
  match body state with
  | .ok (result, next) => (.ok result, next)
  | .error error => (.error error, state)

/-- The value of a read, or an error when there is none. -/
def need (value : Option Result) (error : Error) : Transaction State Error Result :=
  match value with
  | some found => pure found
  | none => throw error

/-- Refuse to go on unless a condition holds. -/
def require (condition : Prop) [Decidable condition] (error : Error) :
    Transaction State Error Unit :=
  if condition then pure () else throw error

/-- Run a body only under a condition. -/
def whenever (condition : Prop) [Decidable condition] (body : Transaction State Error Unit) :
    Transaction State Error Unit :=
  if condition then body else pure ()

/-- A pure computation that may fail. -/
def fallible (value : Except Error Result) : Transaction State Error Result :=
  match value with
  | .ok found => pure found
  | .error error => throw error

/-! ### Reading a finished body backwards -/

theorem bind_ok {first : Transaction State Error Other}
    {next : Other → Transaction State Error Result} {state : State} {finish : Result × State} :
    (first >>= next) state = .ok finish ↔
      ∃ value middle, first state = .ok (value, middle) ∧ next value middle = .ok finish := by
  show (first state >>= fun pair => next pair.1 pair.2) = _ ↔ _
  cases ran : first state with
  | error error => simp [bind, Except.bind]
  | ok pair =>
      constructor
      · exact fun rest => ⟨pair.1, pair.2, rfl, rest⟩
      · rintro ⟨value, middle, same, rest⟩
        cases same
        exact rest

theorem pure_ok {value : Result} {state : State} {finish : Result × State} :
    (pure value : Transaction State Error Result) state = .ok finish ↔ finish = (value, state) := by
  show Except.ok (value, state) = _ ↔ _
  rw [Except.ok.injEq, eq_comm]

theorem throw_ok {error : Error} {state : State} {finish : Result × State} :
    ¬ (throw error : Transaction State Error Result) state = .ok finish :=
  fun absurdity => nomatch absurdity

theorem need_ok {value : Option Result} {error : Error} {state : State}
    {finish : Result × State} :
    need value error state = .ok finish ↔ value = some finish.1 ∧ state = finish.2 := by
  cases value with
  | none =>
      refine ⟨fun impossible => absurd impossible throw_ok, ?_⟩
      rintro ⟨absent, _⟩
      cases absent
  | some found =>
      refine pure_ok.trans ⟨?_, ?_⟩
      · rintro rfl
        exact ⟨rfl, rfl⟩
      · rintro ⟨same, rfl⟩
        cases same
        rfl

theorem require_ok {condition : Prop} [Decidable condition] {error : Error} {state : State}
    {finish : Unit × State} :
    require condition error state = .ok finish ↔ condition ∧ state = finish.2 := by
  unfold require
  by_cases holds : condition
  · rw [if_pos holds, pure_ok]
    exact ⟨by rintro rfl; exact ⟨holds, rfl⟩, by rintro ⟨_, rfl⟩; rfl⟩
  · rw [if_neg holds]
    exact ⟨fun impossible => absurd impossible throw_ok, fun both => absurd both.1 holds⟩

theorem fallible_ok {value : Except Error Result} {state : State} {finish : Result × State} :
    fallible value state = .ok finish ↔ value = .ok finish.1 ∧ state = finish.2 := by
  cases value with
  | error error =>
      refine ⟨fun impossible => absurd impossible throw_ok, ?_⟩
      rintro ⟨absent, _⟩
      cases absent
  | ok found =>
      refine pure_ok.trans ⟨?_, ?_⟩
      · rintro rfl
        exact ⟨rfl, rfl⟩
      · rintro ⟨same, rfl⟩
        cases same
        rfl

theorem get_ok {state : State} {finish : State × State} :
    (get : Transaction State Error State) state = .ok finish ↔ finish = (state, state) := by
  show Except.ok (state, state) = _ ↔ _
  rw [Except.ok.injEq, eq_comm]

theorem set_ok {state next : State} {finish : PUnit × State} :
    (set next : Transaction State Error PUnit) state = .ok finish ↔ finish.2 = next := by
  show Except.ok (PUnit.unit, next) = _ ↔ _
  rw [Except.ok.injEq]
  exact ⟨by rintro rfl; rfl, by rintro rfl; rfl⟩

theorem whenever_ok {condition : Prop} [Decidable condition]
    {body : Transaction State Error Unit} {state : State} {finish : Unit × State} :
    whenever condition body state = .ok finish ↔
      (condition ∧ body state = .ok finish) ∨ (¬ condition ∧ state = finish.2) := by
  unfold whenever
  by_cases holds : condition
  · rw [if_pos holds]
    exact ⟨fun ran => Or.inl ⟨holds, ran⟩, fun either =>
      either.elim And.right fun other => absurd holds other.1⟩
  · rw [if_neg holds, pure_ok]
    refine ⟨fun same => Or.inr ⟨holds, same ▸ rfl⟩, fun either => ?_⟩
    rcases either with ⟨impossible, _⟩ | ⟨_, rfl⟩
    · exact absurd impossible holds
    · rfl

theorem modify_ok {state : State} {change : State → State} {finish : PUnit × State} :
    (modify change : Transaction State Error PUnit) state = .ok finish ↔
      finish.2 = change state := by
  obtain ⟨result, next⟩ := finish
  show Except.ok (PUnit.unit, change state) = _ ↔ _
  rw [Except.ok.injEq, Prod.mk.injEq]
  exact ⟨fun both => both.2.symm, fun same => ⟨rfl, same.symm⟩⟩

/-- What a transaction leaves is what its body wrote, or what was there before. -/
theorem commit_cases (body : Transaction State Error Result) (state : State) :
    (∃ result, body state = .ok (result, (commit body state).2) ∧
        (commit body state).1 = .ok result) ∨ (commit body state).2 = state := by
  unfold commit
  cases ran : body state with
  | error error => exact Or.inr rfl
  | ok pair => exact Or.inl ⟨pair.1, rfl, rfl⟩

/-- A computation that tests as finished has a result. -/
theorem exists_ok {value : Except Error Result} (finished : value.isOk = true) :
    ∃ result, value = .ok result := by
  cases value with
  | error error => cases finished
  | ok result => exact ⟨result, rfl⟩

theorem ok_of_toOption {value : Except Error Result} {result : Result}
    (finished : value.toOption = some result) : value = .ok result := by
  cases value with
  | error error => cases finished
  | ok found =>
      cases finished
      rfl

/-! ### What a body preserves -/

/-- Every finished run of the body relates the state before to the state after. -/
def Keeps (relation : State → State → Prop) (body : Transaction State Error Result) : Prop :=
  ∀ state result next, body state = .ok (result, next) → relation state next

theorem keeps_bind {relation : State → State → Prop}
    (compose : ∀ {one two three}, relation one two → relation two three → relation one three)
    {first : Transaction State Error Other} {rest : Other → Transaction State Error Result}
    (keepsFirst : Keeps relation first) (keepsRest : ∀ value, Keeps relation (rest value)) :
    Keeps relation (first >>= rest) := by
  intro state result next finished
  obtain ⟨value, middle, before, after⟩ := bind_ok.mp finished
  exact compose (keepsFirst _ _ _ before) (keepsRest value _ _ _ after)

/-- What the rest of a body leaves, wherever it starts, is left by the body. -/
theorem keeps_rest {property : State → Prop} {first : Transaction State Error Other}
    {rest : Other → Transaction State Error Result}
    (leaves : ∀ value, Keeps (fun _ => property) (rest value)) :
    Keeps (fun _ => property) (first >>= rest) := by
  intro state result next finished
  obtain ⟨value, middle, _, after⟩ := bind_ok.mp finished
  exact leaves value middle result next after

/-! ### Where a body can finish -/

/-- Started in this state, the body finishes only in states with the property. -/
def Ends (property : State → Prop) (body : Transaction State Error Result) (state : State) :
    Prop :=
  ∀ result next, body state = .ok (result, next) → property next

variable {property : State → Prop} {state : State}

theorem ends_pure {value : Result} (holds : property state) :
    Ends property (pure value : Transaction State Error Result) state := by
  intro result next finished
  cases pure_ok.mp finished
  exact holds

theorem ends_set {next : State} (holds : property next) :
    Ends property (set next : Transaction State Error PUnit) state := by
  intro result final finished
  rw [show final = next from set_ok.mp finished]
  exact holds

theorem ends_set_bind {next : State} {rest : PUnit → Transaction State Error Result}
    (ends : Ends property (rest ⟨⟩) next) : Ends property (set next >>= rest) state := by
  intro result final finished
  obtain ⟨_, middle, wrote, after⟩ := bind_ok.mp finished
  rw [show middle = next from set_ok.mp wrote] at after
  exact ends result final after

theorem ends_require {condition : Prop} [Decidable condition] {error : Error}
    {rest : Unit → Transaction State Error Result} (ends : Ends property (rest ()) state) :
    Ends property (require condition error >>= rest) state := by
  intro result final finished
  obtain ⟨_, _, holds, after⟩ := bind_ok.mp finished
  obtain ⟨_, rfl⟩ := require_ok.mp holds
  exact ends result final after

theorem ends_need {value : Option Other} {error : Error}
    {rest : Other → Transaction State Error Result}
    (ends : ∀ found, value = some found → Ends property (rest found) state) :
    Ends property (need value error >>= rest) state := by
  intro result final finished
  obtain ⟨found, _, present, after⟩ := bind_ok.mp finished
  obtain ⟨is, rfl⟩ := need_ok.mp present
  exact ends found is result final after

/-- A body that starts by reading the state keeps what it keeps from the state it read. -/
theorem keeps_get {relation : State → State → Prop}
    {rest : State → Transaction State Error Result}
    (ends : ∀ state, Ends (relation state) (rest state) state) :
    Keeps relation (get >>= rest) := by
  intro state result next finished
  obtain ⟨_, _, read, after⟩ := bind_ok.mp finished
  cases get_ok.mp read
  exact ends state result next after

end Transaction

end GpuBroker.Library
