/-
This file is the program over a shared state: a tree of atomic accesses that
ends in a result or an error. An access is a read or a transaction; the
transactions carry a label that says what they write.

A program is run one access at a time, so a run that stops anywhere is a crash
at that point, and programs that take turns are processes on one database.
`Safe` is the rule of rely and guarantee for such programs. Before each access
the other processes may have moved the state as the contract's `rely` says; the
access itself keeps the invariant and moves the state as the contract's
`guarantee` says, and only errors the contract names are raised. From it follow
the run of one program, whatever its length, and every interleaving of several.
-/
import Mathlib.Data.Nat.Find
import Mathlib.Logic.Function.Basic
import Mathlib.Logic.Relation

namespace GpuBroker.Library

/-- A program over a shared state. -/
inductive Program (State Label Error Result : Type) : Type 1 where
  | done (result : Result)
  | fail (error : Error)
  | access {Value : Type} (label : Option Label) (action : State → Value × State)
      (next : Value → Program State Label Error Result)

namespace Program

variable {State Label Error Result Other Value Process : Type}

/-- Run a program and go on with its result. -/
def bind (first : Program State Label Error Other)
    (rest : Other → Program State Label Error Result) : Program State Label Error Result :=
  match first with
  | done result => rest result
  | fail error => fail error
  | access label action next => access label action fun value => (next value).bind rest

instance : Monad (Program State Label Error) where
  pure := done
  bind := bind

theorem map_id_program (program : Program State Label Error Result) : id <$> program = program := by
  induction program with
  | done | fail => rfl
  | access label action next inductionHypothesis =>
      exact congrArg (access label action) (funext inductionHypothesis)

theorem bind_assoc_program (program : Program State Label Error Other)
    (first : Other → Program State Label Error Value)
    (second : Value → Program State Label Error Result) :
    program >>= first >>= second = program >>= fun value => first value >>= second := by
  induction program with
  | done | fail => rfl
  | access label action next inductionHypothesis =>
      exact congrArg (access label action) (funext inductionHypothesis)

instance : LawfulMonad (Program State Label Error) :=
  LawfulMonad.mk' _ map_id_program (fun _ _ => rfl) bind_assoc_program

/-- One access that changes the state without a label: a reading of a clock, a call. -/
def quietly (action : State → Value × State) : Program State Label Error Value :=
  access none action done

/-- One read. -/
def read (view : State → Value) : Program State Label Error Value :=
  quietly fun state => (view state, state)

/-- One transaction: it is committed, or it is rolled back and raises. -/
def commit (label : Label) (effect : State → Except Error State) :
    Program State Label Error Unit :=
  access (some label)
    (fun state => match effect state with
      | .ok next => (Except.ok (), next)
      | .error error => (Except.error error, state))
    (fun answer => match answer with
      | .ok _ => done ()
      | .error error => fail error)

/-- The label of the access a program makes next, when it is a transaction. -/
def pending : Program State Label Error Result → Option Label
  | access label _ _ => label
  | _ => none

/-- What a program has come to, once it has ended in a result. -/
def answer : Program State Label Error Result → Option Result
  | done result => some result
  | _ => none

/-- What a program has raised, once it has. -/
def raised : Program State Label Error Result → Option Error
  | fail error => some error
  | _ => none

/-- A program has ended, in a result or an error. -/
def ended (program : Program State Label Error Result) : Bool :=
  program.answer.isSome || program.raised.isSome

/-- Make the next access, if there is one. -/
def step : Program State Label Error Result → State →
    Program State Label Error Result × State
  | access _ action next, state => (next (action state).1, (action state).2)
  | program, state => (program, state)

/-- Make a number of accesses. -/
def run : Nat → Program State Label Error Result → State →
    Program State Label Error Result × State
  | 0, program, state => (program, state)
  | length + 1, program, state =>
      let after := program.step state
      run length after.1 after.2

/-- What a program comes to when it is run to its end, and the state it leaves. -/
def whole : Program State Label Error Result → State → Except Error Result × State
  | done result, state => (.ok result, state)
  | fail error, state => (.error error, state)
  | access _ action next, state => (next (action state).1).whole (action state).2

/-- A program that goes on with what another raises. -/
def attempt : Program State Label Error Result → Program State Label Error (Except Error Result)
  | done result => done (.ok result)
  | fail error => done (.error error)
  | access label action next => access label action fun value => (next value).attempt

/-- The transactions of a run, in order, each with the state it was made in. -/
def trace : Nat → Program State Label Error Result → State → List (Label × State)
  | 0, _, _ => []
  | length + 1, program, state =>
      (program.pending.toList.map fun label => (label, state)) ++
        trace length (program.step state).1 (program.step state).2

/-- The labels of the transactions of a run, in order. -/
def labels (length : Nat) (program : Program State Label Error Result) (state : State) : List Label :=
  (trace length program state).map Prod.fst

/-- Programs take turns as a schedule says. -/
def interleave [DecidableEq Process] : List Process →
    (Process → Program State Label Error Result) → State →
    (Process → Program State Label Error Result) × State
  | [], programs, state => (programs, state)
  | turn :: turns, programs, state =>
      let after := (programs turn).step state
      interleave turns (Function.update programs turn after.1) after.2

/-- Programs run one after another, each stopped after a number of accesses. -/
def sequence : List (Program State Label Error Result × Nat) → State → State
  | [], state => state
  | (program, length) :: rest, state => sequence rest (run length program state).2

/-- The transactions of programs that run one after another. -/
def record : List (Program State Label Error Result × Nat) → State → List (Label × State)
  | [], _ => []
  | (program, length) :: rest, state =>
      trace length program state ++ record rest (run length program state).2

/-- Every transaction of a run is one the predicate allows in the state before it. -/
def Allowed (allowed : Label → State → Prop) : Nat → Program State Label Error Result → State → Prop
  | 0, _, _ => True
  | length + 1, program, state =>
      (∀ label ∈ program.pending, allowed label state) ∧
        Allowed allowed length (program.step state).1 (program.step state).2

/-- Every transaction of a sequence of runs is one the predicate allows in the state before it. -/
def AllAllowed (allowed : Label → State → Prop) :
    List (Program State Label Error Result × Nat) → State → Prop
  | [], _ => True
  | (program, length) :: rest, state =>
      Allowed allowed length program state ∧ AllAllowed allowed rest (run length program state).2

/-- Every transaction of an interleaving is one the predicate allows in the state before it. -/
def TurnsAllowed [DecidableEq Process] (allowed : Process → Label → State → Prop) :
    List Process → (Process → Program State Label Error Result) → State → Prop
  | [], _, _ => True
  | turn :: turns, programs, state =>
      (∀ label ∈ (programs turn).pending, allowed turn label state) ∧
        TurnsAllowed allowed turns
          (Function.update programs turn ((programs turn).step state).1)
          ((programs turn).step state).2

/-- Whether the next transaction is allowed can be told when it can be told of each. -/
instance decidablePending {allowed : Label → Prop} [∀ label, Decidable (allowed label)]
    (program : Program State Label Error Result) :
    Decidable (∀ label ∈ program.pending, allowed label) :=
  match program.pending with
  | none => isTrue nofun
  | some label => decidable_of_iff (allowed label) (by simp)

instance decidableAllowed {allowed : Label → State → Prop}
    [∀ label state, Decidable (allowed label state)] :
    ∀ (length : Nat) (program : Program State Label Error Result) (state : State),
      Decidable (Allowed allowed length program state)
  | 0, _, _ => isTrue trivial
  | length + 1, program, state =>
      have : Decidable (Allowed allowed length (program.step state).1 (program.step state).2) :=
        decidableAllowed _ _ _
      inferInstanceAs (Decidable (_ ∧ _))

instance decidableAllAllowed {allowed : Label → State → Prop}
    [∀ label state, Decidable (allowed label state)] :
    ∀ (entries : List (Program State Label Error Result × Nat)) (state : State),
      Decidable (AllAllowed allowed entries state)
  | [], _ => isTrue trivial
  | (program, length) :: rest, state =>
      have : Decidable (AllAllowed allowed rest (run length program state).2) :=
        decidableAllAllowed _ _
      inferInstanceAs (Decidable (_ ∧ _))

instance decidableTurnsAllowed [DecidableEq Process] {allowed : Process → Label → State → Prop}
    [∀ one label state, Decidable (allowed one label state)] :
    ∀ (turns : List Process) (programs : Process → Program State Label Error Result) (state : State),
      Decidable (TurnsAllowed allowed turns programs state)
  | [], _, _ => isTrue trivial
  | turn :: turns, programs, state =>
      have : Decidable (TurnsAllowed allowed turns
          (Function.update programs turn ((programs turn).step state).1)
          ((programs turn).step state).2) := decidableTurnsAllowed _ _ _
      inferInstanceAs (Decidable (_ ∧ _))

/-- Where everything is allowed, every run is. -/
theorem allowed_always {allowed : Label → State → Prop} (always : ∀ label state, allowed label state)
    (length : Nat) (program : Program State Label Error Result) (state : State) :
    Allowed allowed length program state := by
  induction length generalizing program state with
  | zero => trivial
  | succ length inductionHypothesis =>
      exact ⟨fun label _ => always label state, inductionHypothesis _ _⟩

theorem allAllowed_always {allowed : Label → State → Prop}
    (always : ∀ label state, allowed label state)
    (entries : List (Program State Label Error Result × Nat)) (state : State) :
    AllAllowed allowed entries state := by
  induction entries generalizing state with
  | nil => trivial
  | cons entry entries inductionHypothesis =>
      exact ⟨allowed_always always _ _ _, inductionHypothesis _⟩

theorem turnsAllowed_always [DecidableEq Process] {allowed : Process → Label → State → Prop}
    (always : ∀ one label state, allowed one label state) (turns : List Process)
    (programs : Process → Program State Label Error Result) (state : State) :
    TurnsAllowed allowed turns programs state := by
  induction turns generalizing programs state with
  | nil => trivial
  | cons turn turns inductionHypothesis =>
      exact ⟨fun label _ => always turn label state, inductionHypothesis _ _⟩

theorem run_done (length : Nat) (result : Result) (state : State) :
    run length (done result : Program State Label Error Result) state = (done result, state) := by
  induction length with
  | zero => rfl
  | succ length inductionHypothesis => exact inductionHypothesis

theorem run_fail (length : Nat) (error : Error) (state : State) :
    run length (fail error : Program State Label Error Result) state = (fail error, state) := by
  induction length with
  | zero => rfl
  | succ length inductionHypothesis => exact inductionHypothesis

theorem sequence_append (one two : List (Program State Label Error Result × Nat)) (state : State) :
    sequence (one ++ two) state = sequence two (sequence one state) := by
  induction one generalizing state with
  | nil => rfl
  | cons entry one inductionHypothesis => exact inductionHypothesis _

theorem interleave_append [DecidableEq Process] (first second : List Process)
    (programs : Process → Program State Label Error Result) (state : State) :
    interleave (first ++ second) programs state =
      interleave second (interleave first programs state).1 (interleave first programs state).2 := by
  induction first generalizing programs state with
  | nil => rfl
  | cons turn turns inductionHypothesis => exact inductionHypothesis _ _

theorem interleave_idle [DecidableEq Process] {one : Process} {turns : List Process}
    (idle : one ∉ turns) (programs : Process → Program State Label Error Result) (state : State) :
    (interleave turns programs state).1 one = programs one := by
  induction turns generalizing programs state with
  | nil => rfl
  | cons turn turns inductionHypothesis =>
      have apart := not_or.mp (mt List.mem_cons.mpr idle)
      exact (inductionHypothesis apart.2 _ _).trans (Function.update_of_ne apart.1 _ _)

/-- A program that is given a turn again and again ends, whatever the others do. -/
theorem interleave_ends [DecidableEq Process] {one : Process}
    (program : Program State Label Error Result)
    (programs : Process → Program State Label Error Result) (mine : programs one = program)
    (state : State) (schedule : Nat → Process) (again : ∀ start, ∃ later ≥ start, schedule later = one) :
    ∃ length, ((interleave ((List.range length).map schedule) programs state).1 one).ended = true := by
  induction program generalizing programs state schedule with
  | done result => exact ⟨0, congrArg ended mine⟩
  | fail error => exact ⟨0, congrArg ended mine⟩
  | access label action next inductionHypothesis =>
      have some : ∃ turn, schedule turn = one := (again 0).imp fun _ both => both.2
      have idle : one ∉ (List.range (Nat.find some)).map schedule := by
        intro member
        obtain ⟨turn, early, same⟩ := List.mem_map.mp member
        exact Nat.find_min some (List.mem_range.mp early) same
      let before := interleave ((List.range (Nat.find some)).map schedule) programs state
      have waiting : before.1 one = access label action next := (interleave_idle idle _ _).trans mine
      have turned : Function.update before.1 one ((before.1 one).step before.2).1 one =
          next (action before.2).1 := by
        rw [Function.update_self, waiting]
        rfl
      obtain ⟨length, ended⟩ := inductionHypothesis (action before.2).1 _ turned
        ((before.1 one).step before.2).2 (fun turn => schedule (Nat.find some + (1 + turn)))
        fun start => by
          obtain ⟨later, after, same⟩ := again (Nat.find some + (1 + start))
          exact ⟨later - (Nat.find some + 1), by omega, by
            rw [show Nat.find some + (1 + (later - (Nat.find some + 1))) = later by omega, same]⟩
      refine ⟨Nat.find some + (1 + length), ?_⟩
      have first : schedule (Nat.find some + 0) = one := Nat.find_spec some
      have split : (List.range (Nat.find some + (1 + length))).map schedule =
          (List.range (Nat.find some)).map schedule ++
            (one :: (List.range length).map fun turn => schedule (Nat.find some + (1 + turn))) := by
        rw [List.range_add, List.map_append, List.range_add, List.map_append, List.map_append,
          List.range_one, List.map_singleton, List.map_singleton, first]
        simp [Function.comp_def]
      rw [split, interleave_append]
      exact ended

/-- A predicate that allows more allows every interleaving the other does. -/
theorem turnsAllowed_mono [DecidableEq Process] {allowed also : Process → Label → State → Prop}
    (more : ∀ one label state, allowed one label state → also one label state) {turns : List Process}
    {programs : Process → Program State Label Error Result} {state : State}
    (permitted : TurnsAllowed allowed turns programs state) :
    TurnsAllowed also turns programs state := by
  induction turns generalizing programs state with
  | nil => trivial
  | cons turn turns inductionHypothesis =>
      exact ⟨fun label pending => more turn label state (permitted.1 label pending),
        inductionHypothesis permitted.2⟩

theorem turnsAllowed_append [DecidableEq Process] {allowed : Process → Label → State → Prop}
    {first second : List Process} {programs : Process → Program State Label Error Result}
    {state : State} (permitted : TurnsAllowed allowed (first ++ second) programs state) :
    TurnsAllowed allowed first programs state ∧
      TurnsAllowed allowed second (interleave first programs state).1
        (interleave first programs state).2 := by
  induction first generalizing programs state with
  | nil => exact ⟨trivial, permitted⟩
  | cons turn turns inductionHypothesis =>
      obtain ⟨first, second⟩ := inductionHypothesis permitted.2
      exact ⟨⟨permitted.1, first⟩, second⟩

end Program

/-- What a program may count on and what it owes: how others move the state, how each of its own
accesses does, what holds of every state, which transactions are made at all, and which errors are
raised. -/
structure Contract (State Label Error : Type) where
  rely : State → State → Prop
  guarantee : Option Label → State → State → Prop
  invariant : State → Prop
  allowed : Label → State → Prop
  raises : Error → Prop
  refl : ∀ state, rely state state
  trans : ∀ {one two three}, rely one two → rely two three → rely one three

namespace Contract

variable {State Label Error : Type}

/-- One access by a program under the contract. -/
def Moved (contract : Contract State Label Error) (before after : State) : Prop :=
  ∃ label : Option Label, (∀ written ∈ label, contract.allowed written before) ∧
    contract.invariant before ∧ contract.guarantee label before after

/-- Any number of accesses under the contract. -/
def Path (contract : Contract State Label Error) : State → State → Prop :=
  Relation.ReflTransGen contract.Moved

/-- The contract for runs that make only transactions a further predicate allows. -/
def restrict (contract : Contract State Label Error) (also : Label → State → Prop) :
    Contract State Label Error :=
  { contract with allowed := fun label state => contract.allowed label state ∧ also label state }

/-- The contract of a program that is alone, of which no more is asked than what it ends with: `Safe`
is then its pre- and postcondition. -/
def solo (raises : Error → Prop) : Contract State Label Error where
  rely := fun before after => after = before
  guarantee := fun _ _ _ => True
  invariant := fun _ => True
  allowed := fun _ _ => True
  raises := raises
  refl := fun _ => rfl
  trans := fun first second => second.trans first

/-- The contract of a program that is alone, of which each access changes the state as a relation says
and keeps an invariant. -/
def alone (changes : State → State → Prop) (invariant : State → Prop) : Contract State Label Error where
  rely := fun before after => after = before
  guarantee := fun _ => changes
  invariant := invariant
  allowed := fun _ _ => True
  raises := fun _ => True
  refl := fun _ => rfl
  trans := fun first second => second.trans first

/-- A path under the contract of a program that is alone changes the state as each access does, when the
changes compose. -/
theorem path_alone {changes : State → State → Prop} {invariant : State → Prop} {one two : State}
    (refl : ∀ state, changes state state)
    (trans : ∀ {one two three}, changes one two → changes two three → changes one three)
    (path : (alone changes invariant : Contract State Label Error).Path one two) :
    changes one two := by
  induction path with
  | refl => exact refl one
  | tail _ moved inductionHypothesis =>
      obtain ⟨_, _, _, changed⟩ := moved
      exact trans inductionHypothesis changed

/-- A contract under which a sign never starts to show. -/
structure Hides (contract : Contract State Label Error) (sign : State → Prop) : Prop where
  rely : ∀ {before after}, contract.rely before after → ¬ sign before → ¬ sign after
  guarantee : ∀ {label before after}, contract.guarantee label before after → ¬ sign before →
    ¬ sign after

end Contract

namespace Program

variable {State Label Error Result Other Value Process : Type}
  {contract : Contract State Label Error}

/-- Under the contract, from a state and whatever others make of it, each access keeps its side, a
result meets the postcondition and an error is one the contract names. -/
def Safe (contract : Contract State Label Error) :
    Program State Label Error Result → (Result → State → Prop) → State → Prop
  | done result, post, state =>
      ∀ current, contract.rely state current → contract.invariant current → post result current
  | fail error, _, state =>
      ∀ current, contract.rely state current → contract.invariant current → contract.raises error
  | access label action next, post, state =>
      ∀ current, contract.rely state current → contract.invariant current →
        (∀ written ∈ label, contract.allowed written current) →
          contract.invariant (action current).2 ∧
          contract.guarantee label current (action current).2 ∧
          (next (action current).1).Safe contract post (action current).2

/-- What others do to the state leaves a safe program safe. -/
theorem Safe.moved {program : Program State Label Error Result}
    {post : Result → State → Prop} {state current : State}
    (safe : program.Safe contract post state) (moved : contract.rely state current) :
    program.Safe contract post current := by
  cases program with
  | done result => exact fun later rest => safe later (contract.trans moved rest)
  | fail error => exact fun later rest => safe later (contract.trans moved rest)
  | access label action next => exact fun later rest => safe later (contract.trans moved rest)

/-- A program that is safe at every state others may leave behind is safe. -/
theorem Safe.settled {program : Program State Label Error Result}
    {post : Result → State → Prop} {state : State}
    (safe : ∀ current, contract.rely state current → contract.invariant current →
      program.Safe contract post current) :
    program.Safe contract post state := by
  cases program with
  | done result => exact fun current moved kept => safe current moved kept current (contract.refl _) kept
  | fail error => exact fun current moved kept => safe current moved kept current (contract.refl _) kept
  | access label action next =>
      exact fun current moved kept => safe current moved kept current (contract.refl _) kept

theorem Safe.pure {result : Result} {post : Result → State → Prop} {state : State}
    (holds : ∀ current, contract.rely state current → contract.invariant current →
      post result current) :
    (Pure.pure result : Program State Label Error Result).Safe contract post state :=
  holds

theorem Safe.fail {error : Error} {post : Result → State → Prop} {state : State}
    (raises : contract.raises error) :
    (Program.fail error : Program State Label Error Result).Safe contract post state :=
  fun _ _ _ => raises

/-- The rule of composition: what the first part establishes, the rest starts from. -/
theorem Safe.bind {first : Program State Label Error Other}
    {rest : Other → Program State Label Error Result}
    {middle : Other → State → Prop} {post : Result → State → Prop} {state : State}
    (safe : first.Safe contract middle state)
    (resume : ∀ value current, contract.invariant current → middle value current →
      (rest value).Safe contract post current) :
    (first >>= rest).Safe contract post state := by
  induction first generalizing state with
  | done result =>
      exact Safe.settled fun current moved kept => resume result current kept (safe current moved kept)
  | fail error => exact safe
  | access label action next inductionHypothesis =>
      intro current moved kept permitted
      obtain ⟨invariant, guarantee, later⟩ := safe current moved kept permitted
      exact ⟨invariant, guarantee, inductionHypothesis _ later⟩

/-- The rule of a transaction: the rest goes on from what it leaves, and what rolls it back is
raised. -/
theorem Safe.commit {label : Label} {effect : State → Except Error State}
    {rest : Unit → Program State Label Error Result} {post : Result → State → Prop} {state : State}
    (committed : ∀ current next, contract.rely state current → contract.invariant current →
      contract.allowed label current → effect current = .ok next →
        contract.invariant next ∧ contract.guarantee (some label) current next ∧
          (rest ()).Safe contract post next)
    (raised : ∀ current error, contract.rely state current → contract.invariant current →
      contract.allowed label current → effect current = .error error →
        contract.guarantee (some label) current current ∧ contract.raises error) :
    (Program.commit label effect >>= rest).Safe contract post state := by
  intro current moved kept permitted
  simp only
  cases outcome : effect current with
  | ok next => exact committed current next moved kept (permitted label rfl) outcome
  | error error =>
      obtain ⟨guarantee, raises⟩ := raised current error moved kept (permitted label rfl) outcome
      exact ⟨kept, guarantee, Safe.fail raises⟩

/-- A weaker postcondition. -/
theorem Safe.weaken {program : Program State Label Error Result}
    {post weaker : Result → State → Prop} {state : State} (safe : program.Safe contract post state)
    (implies : ∀ result current, contract.invariant current → post result current →
      weaker result current) :
    program.Safe contract weaker state := by
  induction program generalizing state with
  | done result =>
      exact fun current moved kept => implies result current kept (safe current moved kept)
  | fail error => exact safe
  | access label action next inductionHypothesis =>
      intro current moved kept permitted
      obtain ⟨invariant, guarantee, later⟩ := safe current moved kept permitted
      exact ⟨invariant, guarantee, inductionHypothesis _ later⟩

/-- A program that is safe is safe where fewer transactions are made. -/
theorem Safe.restrict {program : Program State Label Error Result} {post : Result → State → Prop}
    {state : State} (safe : program.Safe contract post state) (also : Label → State → Prop) :
    program.Safe (contract.restrict also) post state := by
  induction program generalizing state with
  | done result => exact safe
  | fail error => exact safe
  | access label action next inductionHypothesis =>
      intro current moved kept permitted
      obtain ⟨invariant, guarantee, later⟩ :=
        safe current moved kept fun written wrote => (permitted written wrote).1
      exact ⟨invariant, guarantee, inductionHypothesis _ later⟩

/-- The rule of the loop: what holds with a list ahead holds with its tail ahead after the body. -/
theorem Safe.foldlM {Item : Type} {body : Result → Item → Program State Label Error Result}
    (ahead : List Item → Result → State → Prop)
    (stable : ∀ items result state current, contract.rely state current →
      contract.invariant current → ahead items result state → ahead items result current)
    (each : ∀ item items result state, contract.invariant state →
      ahead (item :: items) result state →
        (body result item).Safe contract (fun after => ahead items after) state)
    {items : List Item} {result : Result} {state : State} (kept : contract.invariant state)
    (start : ahead items result state) :
    (items.foldlM body result).Safe contract (fun after => ahead [] after) state := by
  induction items generalizing result state with
  | nil => exact fun current moved invariant => stable _ _ _ _ moved invariant start
  | cons item items inductionHypothesis =>
      rw [List.foldlM_cons]
      exact (each item items result state kept start).bind fun after current invariant holds =>
        inductionHypothesis invariant holds

/-- The rule of the loop that only has effects: what each body keeps, the loop keeps. -/
theorem Safe.forM {Item : Type} {body : Item → Program State Label Error Unit} {holds : State → Prop}
    (stable : ∀ state current, contract.rely state current → holds state → holds current)
    {items : List Item}
    (each : ∀ item ∈ items, ∀ state, contract.invariant state → holds state →
      (body item).Safe contract (fun _ => holds) state)
    {state : State} (kept : contract.invariant state) (start : holds state) :
    (ForM.forM items body : Program State Label Error Unit).Safe contract (fun _ => holds) state := by
  induction items generalizing state with
  | nil => exact fun current moved _ => stable _ _ moved start
  | cons item items inductionHypothesis =>
      rw [List.forM_cons]
      exact (each item List.mem_cons_self state kept start).bind fun _ current invariant still =>
        inductionHypothesis (fun other member => each other (List.mem_cons_of_mem _ member)) invariant still

/-- A safe program stays safe where what it raises is passed over. -/
theorem Safe.attempt {program : Program State Label Error Result} {state : State}
    (safe : program.Safe contract (fun _ _ => True) state) :
    program.attempt.Safe contract (fun _ _ => True) state := by
  induction program generalizing state with
  | done | fail => exact fun _ _ _ => trivial
  | access label action next inductionHypothesis =>
      intro current moved kept permitted
      obtain ⟨invariant, guarantee, later⟩ := safe current moved kept permitted
      exact ⟨invariant, guarantee, inductionHypothesis _ later⟩

/-- One step of a safe program. -/
theorem Safe.step {program : Program State Label Error Result} {post : Result → State → Prop}
    {state : State} (safe : program.Safe contract post state) (kept : contract.invariant state)
    (permitted : ∀ label ∈ program.pending, contract.allowed label state) :
    contract.invariant (program.step state).2 ∧
      (program.step state).1.Safe contract post (program.step state).2 ∧
      ((program.step state).2 = state ∨
        contract.guarantee program.pending state (program.step state).2) := by
  cases program with
  | done result => exact ⟨kept, safe, Or.inl rfl⟩
  | fail error => exact ⟨kept, safe, Or.inl rfl⟩
  | access label action next =>
      obtain ⟨invariant, guarantee, later⟩ := safe state (contract.refl _) kept permitted
      exact ⟨invariant, later, Or.inr guarantee⟩

/-- The step of a safe program is a path of at most one access. -/
theorem Safe.step_path {program : Program State Label Error Result} {post : Result → State → Prop}
    {state : State} (safe : program.Safe contract post state) (kept : contract.invariant state)
    (permitted : ∀ label ∈ program.pending, contract.allowed label state) :
    contract.Path state (program.step state).2 := by
  rcases (safe.step kept permitted).2.2 with same | guarantee
  · rw [same]
    exact .refl
  · exact .single ⟨program.pending, permitted, kept, guarantee⟩

/-- A safe program, stopped after any number of accesses, has followed the contract. -/
theorem Safe.run {program : Program State Label Error Result} {post : Result → State → Prop}
    {length : Nat} {state : State} (safe : program.Safe contract post state)
    (kept : contract.invariant state) (permitted : Allowed contract.allowed length program state) :
    contract.invariant (run length program state).2 ∧
      contract.Path state (run length program state).2 := by
  induction length generalizing program state with
  | zero => exact ⟨kept, .refl⟩
  | succ length inductionHypothesis =>
      obtain ⟨invariant, later, _⟩ := safe.step kept permitted.1
      obtain ⟨holds, path⟩ := inductionHypothesis later invariant permitted.2
      exact ⟨holds, (safe.step_path kept permitted.1).trans path⟩

/-- What is kept of the transactions so far and the state: each access of a program under the
contract keeps it. -/
structure Keeps (contract : Contract State Label Error) (holds : List (Label × State) → State → Prop) :
    Prop where
  quiet : ∀ past before after, contract.invariant before → contract.guarantee none before after →
    holds past before → holds past after
  writes : ∀ past label before after, contract.invariant before → contract.allowed label before →
    contract.guarantee (some label) before after → holds past before →
      holds (past ++ [(label, before)]) after

/-- The rule of a history: what every access keeps holds of the transactions of a run and the state
it leaves. -/
theorem Safe.history {holds : List (Label × State) → State → Prop} (keeps : Keeps contract holds)
    {program : Program State Label Error Result} {post : Result → State → Prop} {length : Nat}
    {past : List (Label × State)} {state : State} (safe : program.Safe contract post state)
    (kept : contract.invariant state) (permitted : Allowed contract.allowed length program state)
    (start : holds past state) :
    holds (past ++ trace length program state) (program.run length state).2 := by
  induction length generalizing program past state with
  | zero =>
      rw [trace, List.append_nil]
      exact start
  | succ length inductionHypothesis =>
      obtain ⟨invariant, later, _⟩ := safe.step kept permitted.1
      have next : holds (past ++ program.pending.toList.map fun label => (label, state))
          (program.step state).2 := by
        cases program with
        | done result | fail error =>
            show holds (past ++ []) state
            rw [List.append_nil]
            exact start
        | access label action next =>
            have guarantee := (safe state (contract.refl _) kept permitted.1).2.1
            cases label with
            | none =>
                show holds (past ++ []) _
                rw [List.append_nil]
                exact keeps.quiet past state _ kept guarantee start
            | some label =>
                exact keeps.writes past label state _ kept (permitted.1 label rfl) guarantee start
      rw [trace, ← List.append_assoc]
      exact inductionHypothesis later invariant permitted.2 next

/-- The rule of a history for programs that run one after another, each stopped anywhere. -/
theorem Safe.sequence_history {holds : List (Label × State) → State → Prop}
    (keeps : Keeps contract holds) {entries : List (Program State Label Error Result × Nat)}
    (safe : ∀ entry ∈ entries, ∀ state, contract.invariant state →
      entry.1.Safe contract (fun _ _ => True) state)
    {past : List (Label × State)} {state : State} (kept : contract.invariant state)
    (permitted : AllAllowed contract.allowed entries state) (start : holds past state) :
    holds (past ++ record entries state) (sequence entries state) := by
  induction entries generalizing past state with
  | nil =>
      rw [record, List.append_nil]
      exact start
  | cons entry entries inductionHypothesis =>
      have mine := safe entry List.mem_cons_self state kept
      have next := mine.history keeps kept permitted.1 start
      rw [record, ← List.append_assoc]
      exact inductionHypothesis (fun later member => safe later (List.mem_cons_of_mem _ member))
        (mine.run kept permitted.1).1 permitted.2 next

/-- What a safe program ends with meets the postcondition. -/
theorem Safe.result {program : Program State Label Error Result} {post : Result → State → Prop}
    {length : Nat} {state : State} {result : Result} (safe : program.Safe contract post state)
    (kept : contract.invariant state) (permitted : Allowed contract.allowed length program state)
    (ended : (program.run length state).1.answer = some result) :
    post result (program.run length state).2 := by
  induction length generalizing program state with
  | zero =>
      cases program with
      | done value =>
          cases ended
          exact safe state (contract.refl _) kept
      | fail error => cases ended
      | access label action next => cases ended
  | succ length inductionHypothesis =>
      obtain ⟨invariant, later, _⟩ := safe.step kept permitted.1
      exact inductionHypothesis later invariant permitted.2 ended

/-- What a safe program raises is an error the contract names. -/
theorem Safe.error {program : Program State Label Error Result} {post : Result → State → Prop}
    {length : Nat} {state : State} {error : Error} (safe : program.Safe contract post state)
    (kept : contract.invariant state) (permitted : Allowed contract.allowed length program state)
    (ended : (program.run length state).1.raised = some error) : contract.raises error := by
  induction length generalizing program state with
  | zero =>
      cases program with
      | fail other =>
          cases ended
          exact safe state (contract.refl _) kept
      | done result => cases ended
      | access label action next => cases ended
  | succ length inductionHypothesis =>
      obtain ⟨invariant, later, _⟩ := safe.step kept permitted.1
      exact inductionHypothesis later invariant permitted.2 ended

/-- What is left of a safe program after any number of accesses is safe. -/
theorem Safe.rest {program : Program State Label Error Result} {post : Result → State → Prop}
    {length : Nat} {state : State} (safe : program.Safe contract post state)
    (kept : contract.invariant state) (permitted : Allowed contract.allowed length program state) :
    (program.run length state).1.Safe contract post (program.run length state).2 := by
  induction length generalizing program state with
  | zero => exact safe
  | succ length inductionHypothesis =>
      obtain ⟨invariant, later, _⟩ := safe.step kept permitted.1
      exact inductionHypothesis later invariant permitted.2

/-- Every program ends when it is run long enough. -/
theorem run_ends (program : Program State Label Error Result) (state : State) :
    ∃ length, (program.run length state).1.ended = true := by
  induction program generalizing state with
  | done result => exact ⟨0, rfl⟩
  | fail error => exact ⟨0, rfl⟩
  | access label action next inductionHypothesis =>
      obtain ⟨length, ended⟩ := inductionHypothesis (action state).1 (action state).2
      exact ⟨length + 1, ended⟩

/-- A program run to its end is some run of it. -/
theorem run_whole (program : Program State Label Error Result) (state : State) :
    ∃ length, (program.run length state).2 = (program.whole state).2 ∧
      ((program.run length state).1.answer = (program.whole state).1.toOption ∧
        ∀ error, (program.run length state).1.raised = some error ↔
          (program.whole state).1 = .error error) := by
  induction program generalizing state with
  | done result => exact ⟨0, rfl, rfl, fun _ => ⟨nofun, nofun⟩⟩
  | fail error =>
      refine ⟨0, rfl, rfl, fun other => ⟨fun same => ?_, fun same => ?_⟩⟩
      · cases same
        rfl
      · cases same
        rfl
  | access label action next inductionHypothesis =>
      obtain ⟨length, ended⟩ := inductionHypothesis (action state).1 (action state).2
      exact ⟨length + 1, ended⟩

/-- A program that has come to an answer comes to it when it is run to its end. -/
theorem whole_of_answer {program : Program State Label Error Result} {length : Nat} {state : State}
    {result : Result} (answered : (program.run length state).1.answer = some result) :
    program.whole state = (.ok result, (program.run length state).2) := by
  induction length generalizing program state with
  | zero =>
      cases program with
      | done other =>
          cases answered
          rfl
      | fail | access => cases answered
  | succ length inductionHypothesis =>
      cases program with
      | done other => exact @inductionHypothesis (done other) state answered
      | fail error => exact @inductionHypothesis (fail error) state answered
      | access label action next => exact inductionHypothesis answered

theorem whole_bind (first : Program State Label Error Other)
    (rest : Other → Program State Label Error Result) (state : State) :
    (first >>= rest).whole state =
      match first.whole state with
      | (.ok value, next) => (rest value).whole next
      | (.error error, next) => (.error error, next) := by
  induction first generalizing state with
  | done result => rfl
  | fail error => rfl
  | access label action next inductionHypothesis => exact inductionHypothesis _ _

theorem whole_commit (label : Label) (effect : State → Except Error State) (state : State) :
    (commit label effect : Program State Label Error Unit).whole state =
      match effect state with
      | .ok next => (.ok (), next)
      | .error error => (.error error, state) := by
  unfold commit whole
  simp only
  cases effect state <;> rfl

theorem whole_bind_ok {first : Program State Label Error Other}
    {rest : Other → Program State Label Error Result} {state next : State} {value : Other}
    (ended : first.whole state = (.ok value, next)) :
    (first >>= rest).whole state = (rest value).whole next := by
  rw [whole_bind, ended]

theorem whole_bind_eq_ok {first : Program State Label Error Other}
    {rest : Other → Program State Label Error Result} {state last : State} {result : Result}
    (ended : (first >>= rest).whole state = (.ok result, last)) :
    ∃ value next, first.whole state = (.ok value, next) ∧
      (rest value).whole next = (.ok result, last) := by
  rw [whole_bind] at ended
  split at ended
  · next value next came => exact ⟨value, next, came, ended⟩
  · cases ended

/-- The transactions of a program that is run to its end, in order, each with the state it was made
in. -/
def wholeTrace : Program State Label Error Result → State → List (Label × State)
  | access label action next, state =>
      (label.toList.map fun label => (label, state)) ++ (next (action state).1).wholeTrace (action state).2
  | _, _ => []

/-- A program that is run to its end comes to a result, leaves a state and has made transactions. -/
structure Ends (program : Program State Label Error Result) (state : State) (result : Result) (last : State)
    (made : List (Label × State)) : Prop where
  comes : program.whole state = (.ok result, last)
  makes : program.wholeTrace state = made

theorem Ends.bind {first : Program State Label Error Other}
    {rest : Other → Program State Label Error Result} {state middle last : State} {value : Other}
    {result : Result} {early late : List (Label × State)} (begins : first.Ends state value middle early)
    (resumes : (rest value).Ends middle result last late) :
    (first >>= rest).Ends state result last (early ++ late) := by
  refine ⟨(whole_bind_ok begins.comes).trans resumes.comes, ?_⟩
  obtain ⟨came, rfl⟩ := begins
  induction first generalizing state with
  | done other =>
      cases came
      exact resumes.makes
  | fail error => cases came
  | access label action next inductionHypothesis =>
      show _ ++ (next (action state).1 >>= rest).wholeTrace (action state).2 = (_ ++ _) ++ late
      rw [inductionHypothesis _ came, List.append_assoc]

/-- A program that is stopped late enough is run to its end. -/
theorem Ends.reached {program : Program State Label Error Result} {state last : State} {result : Result}
    {made : List (Label × State)} (ends : program.Ends state result last made) :
    ∃ length, trace length program state = made ∧ (program.run length state).2 = last := by
  obtain ⟨came, rfl⟩ := ends
  induction program generalizing state with
  | done other =>
      cases came
      exact ⟨0, rfl, rfl⟩
  | fail error => cases came
  | access label action next inductionHypothesis =>
      obtain ⟨length, same, left⟩ := inductionHypothesis _ came
      exact ⟨length + 1, congrArg _ same, left⟩

/-- What each part of a program keeps, the whole of it keeps. -/
theorem whole_bind_keeps {holds : State → Prop} {first : Program State Label Error Other}
    {rest : Other → Program State Label Error Result} {state : State}
    (begins : holds (first.whole state).2)
    (resumes : ∀ value next, holds next → holds ((rest value).whole next).2) :
    holds ((first >>= rest).whole state).2 := by
  rw [whole_bind]
  split
  · next value next came =>
    rw [came] at begins
    exact resumes value next begins
  · next error next came =>
    rw [came] at begins
    exact begins

/-- When the whole ends in a result, so does its first part. -/
theorem ok_of_whole_bind {first : Program State Label Error Other}
    {rest : Other → Program State Label Error Result} {state : State} {result : Result}
    (ended : ((first >>= rest).whole state).1 = .ok result) :
    ∃ value, (first.whole state).1 = .ok value ∧
      ((rest value).whole (first.whole state).2).1 = .ok result := by
  rw [whole_bind] at ended
  split at ended
  · next value next came =>
    rw [came]
    exact ⟨value, rfl, ended⟩
  · cases ended

/-- What a safe program comes to when it is run to its end. -/
theorem Safe.whole {program : Program State Label Error Result} {post : Result → State → Prop}
    {state : State} (safe : program.Safe contract post state) (kept : contract.invariant state)
    (free : ∀ label state, contract.allowed label state) :
    contract.invariant (program.whole state).2 ∧ contract.Path state (program.whole state).2 ∧
      (∀ result, (program.whole state).1 = .ok result → post result (program.whole state).2) ∧
      ∀ error, (program.whole state).1 = .error error → contract.raises error := by
  obtain ⟨length, left, answered, raised⟩ := program.run_whole state
  have permitted : Allowed contract.allowed length program state := allowed_always free _ _ _
  obtain ⟨invariant, path⟩ := safe.run kept permitted
  refine ⟨left ▸ invariant, left ▸ path, fun result ended => ?_, fun error ended => ?_⟩
  · rw [← left]
    refine safe.result kept permitted (answered.trans ?_)
    rw [ended]
    rfl
  · exact safe.error kept permitted ((raised error).mpr ended)

/-- A program that raises nothing ends in a result, which meets the postcondition. -/
theorem Safe.answers {program : Program State Label Error Result} {post : Result → State → Prop}
    {state : State} (safe : program.Safe contract post state) (kept : contract.invariant state)
    (free : ∀ label state, contract.allowed label state) (calm : ∀ error, ¬ contract.raises error) :
    ∃ length result, (program.run length state).1.answer = some result ∧
      post result (program.run length state).2 := by
  obtain ⟨length, ended⟩ := program.run_ends state
  have permitted : Allowed contract.allowed length program state := allowed_always free _ _ _
  cases answered : (program.run length state).1.answer with
  | some result => exact ⟨length, result, answered, safe.result kept permitted answered⟩
  | none =>
      cases raised : (program.run length state).1.raised with
      | some error => exact absurd (safe.error kept permitted raised) (calm error)
      | none => simp [Program.ended, answered, raised] at ended

/-- A first part that raises nothing is run to its end, and the rest then goes on from what it left. -/
theorem Safe.run_bind {first : Program State Label Error Other} {post : Other → State → Prop}
    {state : State} (safe : first.Safe contract post state) (kept : contract.invariant state)
    (free : ∀ label state, contract.allowed label state) (calm : ∀ error, ¬ contract.raises error)
    (rest : Other → Program State Label Error Result) :
    ∃ length value next, post value next ∧
      ∀ more, (first >>= rest).run (length + more) state = (rest value).run more next := by
  induction first generalizing state with
  | done value =>
      refine ⟨0, value, state, safe state (contract.refl _) kept, fun more => ?_⟩
      rw [Nat.zero_add]
      rfl
  | fail error => exact absurd (safe state (contract.refl _) kept) (calm error)
  | access label action next inductionHypothesis =>
      obtain ⟨invariant, _, later⟩ := safe state (contract.refl _) kept fun written _ => free written state
      obtain ⟨length, value, last, holds, runs⟩ := inductionHypothesis _ later invariant
      refine ⟨length + 1, value, last, holds, fun more => ?_⟩
      rw [Nat.add_right_comm, ← runs more]
      rfl

/-- The rule of an access without a label, of a program that is alone. -/
theorem Safe.quietly {raises : Error → Prop} {action : State → Value × State}
    {rest : Value → Program State Label Error Result} {post : Result → State → Prop} {state : State}
    (safe : (rest (action state).1).Safe (Contract.solo raises) post (action state).2) :
    (Program.quietly action >>= rest).Safe (Contract.solo raises) post state := by
  rintro current rfl _ _
  exact ⟨trivial, trivial, safe⟩

/-- A part of a state, and how the rest of it takes a new one. -/
structure Lens (Whole Part : Type) where
  view : Whole → Part
  put : Part → Whole → Whole
  view_put : ∀ part whole, view (put part whole) = part

/-- A program on a part of a state, as a program on the whole of it. -/
def lift {Whole Label' Error' : Type} (lens : Lens Whole State) (relabel : Label → Label')
    (reraise : Error → Error') : Program State Label Error Result → Program Whole Label' Error' Result
  | done result => done result
  | fail error => fail (reraise error)
  | access label action next =>
      access (label.map relabel)
        (fun whole =>
          let after := action (lens.view whole)
          (after.1, lens.put after.2 whole))
        fun value => (next value).lift lens relabel reraise

/-- A program that is safe on a part of a state is safe on the whole of it, when what it changes and
keeps there says what is changed and kept of the whole. -/
theorem Safe.lift {Whole Label' Error' : Type} {lens : Lens Whole State} {relabel : Label → Label'}
    {reraise : Error → Error'} {changes : State → State → Prop} {keeps : State → Prop}
    {changesWhole : Whole → Whole → Prop} {keepsWhole : Whole → Prop}
    (kept : ∀ whole, keepsWhole whole → keeps (lens.view whole))
    (keepsPut : ∀ whole part, keepsWhole whole → keeps part → keepsWhole (lens.put part whole))
    (changesPut : ∀ whole part, changes (lens.view whole) part → changesWhole whole (lens.put part whole))
    {program : Program State Label Error Result} {post : Result → State → Prop} {whole : Whole}
    (safe : program.Safe (Contract.alone changes keeps) post (lens.view whole)) :
    (program.lift lens relabel reraise).Safe (Contract.alone changesWhole keepsWhole)
      (fun result after => post result (lens.view after)) whole := by
  induction program generalizing whole with
  | done result =>
      rintro current rfl invariant
      exact safe _ rfl (kept _ invariant)
  | fail error => exact fun _ _ _ => trivial
  | access label action next inductionHypothesis =>
      rintro current rfl invariant _
      obtain ⟨keptNext, changed, later⟩ := safe _ rfl (kept _ invariant) fun _ _ => trivial
      refine ⟨keepsPut _ _ invariant keptNext, changesPut _ _ changed, inductionHypothesis _ ?_⟩
      rw [lens.view_put]
      exact later

/-- Once a sign shows in the state, the rest of the program is safe under a stricter contract. -/
def Since (contract strict : Contract State Label Error) (sign : State → Prop) :
    Program State Label Error Result → (Result → State → Prop) → State → Prop
  | access label action next, post, state =>
      ∀ current, contract.rely state current → contract.invariant current →
        (∀ written ∈ label, contract.allowed written current) →
          contract.invariant (action current).2 ∧
          (sign (action current).2 → (next (action current).1).Safe strict post (action current).2) ∧
          (¬ sign (action current).2 →
            (next (action current).1).Since contract strict sign post (action current).2)
  | _, _, _ => True

theorem Since.bind {strict : Contract State Label Error} {sign : State → Prop}
    (hides : contract.Hides sign) {first : Program State Label Error Other}
    {rest : Other → Program State Label Error Result} {middle : Other → State → Prop}
    {post : Result → State → Prop} {state : State} (safe : first.Safe contract middle state)
    (kept : contract.invariant state) (unsigned : ¬ sign state)
    (resume : ∀ value current, contract.invariant current → ¬ sign current → middle value current →
      (rest value).Since contract strict sign post current) :
    (first >>= rest).Since contract strict sign post state := by
  induction first generalizing state with
  | done result => exact resume result state kept unsigned (safe state (contract.refl _) kept)
  | fail error => trivial
  | access label action next inductionHypothesis =>
      intro current moved keptCurrent permitted
      obtain ⟨invariant, guarantee, later⟩ := safe current moved keptCurrent permitted
      have dark := hides.guarantee guarantee (hides.rely moved unsigned)
      exact ⟨invariant, fun shows => absurd shows dark, fun _ =>
        inductionHypothesis _ later invariant dark⟩

/-- A program that never shows the sign. -/
theorem Safe.since {strict : Contract State Label Error} {sign : State → Prop}
    (hides : contract.Hides sign) {program : Program State Label Error Result}
    {middle post : Result → State → Prop} {state : State} (safe : program.Safe contract middle state)
    (unsigned : ¬ sign state) : program.Since contract strict sign post state := by
  induction program generalizing state with
  | done result => trivial
  | fail error => trivial
  | access label action next inductionHypothesis =>
      intro current moved kept permitted
      obtain ⟨invariant, guarantee, later⟩ := safe current moved kept permitted
      have dark := hides.guarantee guarantee (hides.rely moved unsigned)
      exact ⟨invariant, fun shows => absurd shows dark, fun _ => inductionHypothesis _ later dark⟩

/-- What is left of a run in which the sign shows is safe under the stricter contract. -/
theorem Since.run {strict : Contract State Label Error} {sign : State → Prop}
    {program : Program State Label Error Result} {post : Result → State → Prop} {length : Nat}
    {state : State} (since : program.Since contract strict sign post state)
    (same : strict.invariant = contract.invariant) (free : ∀ label state, strict.allowed label state)
    (kept : contract.invariant state) (unsigned : ¬ sign state)
    (permitted : Allowed contract.allowed length program state)
    (shows : sign (program.run length state).2) :
    (program.run length state).1.Safe strict post (program.run length state).2 ∧
      strict.invariant (program.run length state).2 := by
  induction length generalizing program state with
  | zero => exact absurd shows unsigned
  | succ length inductionHypothesis =>
      cases program with
      | done result => exact inductionHypothesis since kept unsigned permitted.2 shows
      | fail error => exact inductionHypothesis since kept unsigned permitted.2 shows
      | access label action next =>
          obtain ⟨invariant, shown, dark⟩ := since state (contract.refl _) kept permitted.1
          by_cases signed : sign (action state).2
          · have safe := shown signed
            have keptStrict : strict.invariant (action state).2 := same ▸ invariant
            have allowed := allowed_always free length (next (action state).1) (action state).2
            exact ⟨safe.rest keptStrict allowed, (safe.run keptStrict allowed).1⟩
          · exact inductionHypothesis (dark signed) invariant signed permitted.2 shows

/-- Safe programs one after another, each stopped anywhere, have followed the contract. -/
theorem Safe.sequence {entries : List (Program State Label Error Result × Nat)}
    (safe : ∀ entry ∈ entries, ∀ state, contract.invariant state →
      entry.1.Safe contract (fun _ _ => True) state)
    {state : State} (kept : contract.invariant state)
    (permitted : AllAllowed contract.allowed entries state) :
    contract.invariant (sequence entries state) ∧
      contract.Path state (sequence entries state) := by
  induction entries generalizing state with
  | nil => exact ⟨kept, .refl⟩
  | cons entry entries inductionHypothesis =>
      obtain ⟨invariant, path⟩ := (safe entry List.mem_cons_self state kept).run kept permitted.1
      obtain ⟨holds, rest⟩ := inductionHypothesis
        (fun later member => safe later (List.mem_cons_of_mem _ member)) invariant permitted.2
      exact ⟨holds, path.trans rest⟩

/-- Contracts whose holders may run side by side: each relies on no less than what every other
guarantees, and they share the invariant. -/
structure Compatible (contracts : Process → Contract State Label Error) (common : State → Prop) :
    Prop where
  invariant : ∀ one, (contracts one).invariant = common
  apart : ∀ {one other label before after}, one ≠ other →
    (contracts one).guarantee label before after → (contracts other).rely before after

/-- Safe programs under compatible contracts, interleaved in any order, keep the invariant and stay
safe; every access is one of theirs. -/
theorem Safe.interleave [DecidableEq Process] {contracts : Process → Contract State Label Error}
    {common : State → Prop} (compatible : Compatible contracts common)
    {programs : Process → Program State Label Error Result}
    {posts : Process → Result → State → Prop} {turns : List Process} {state : State}
    (safe : ∀ one, (programs one).Safe (contracts one) (posts one) state) (kept : common state)
    (permitted : TurnsAllowed (fun one => (contracts one).allowed) turns programs state) :
    let last := interleave turns programs state
    (∀ one, (last.1 one).Safe (contracts one) (posts one) last.2) ∧ common last.2 ∧
      Relation.ReflTransGen (fun before after => ∃ one, (contracts one).Moved before after)
        state last.2 := by
  induction turns generalizing programs state with
  | nil => exact ⟨safe, kept, .refl⟩
  | cons turn turns inductionHypothesis =>
      have keptTurn : (contracts turn).invariant state := compatible.invariant turn ▸ kept
      obtain ⟨invariant, later, either⟩ := (safe turn).step keptTurn permitted.1
      have safeLater : ∀ one,
          (Function.update programs turn ((programs turn).step state).1 one).Safe (contracts one)
            (posts one) ((programs turn).step state).2 := by
        intro one
        by_cases same : one = turn
        · subst same
          rw [Function.update_self]
          exact later
        · rw [Function.update_of_ne same]
          refine (safe one).moved ?_
          rcases either with still | guarantee
          · rw [still]
            exact (contracts one).refl _
          · exact compatible.apart (Ne.symm same) guarantee
      obtain ⟨first, last, path⟩ := inductionHypothesis safeLater
        (compatible.invariant turn ▸ invariant) permitted.2
      refine ⟨first, last, .trans ?_ path⟩
      exact Relation.ReflTransGen.mono (fun _ _ moved => ⟨turn, moved⟩) _ _
        ((safe turn).step_path keptTurn permitted.1)

end Program

end GpuBroker.Library
