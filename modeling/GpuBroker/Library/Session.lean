/-
This file is several transactions in progress on one store, at the isolation
level where each statement reads what is committed when it runs.

A transaction is a script: statements, which read the store beside what the
transaction has written so far and add to it, and claims of locks, which are
held until the transaction ends. The others see what it has written from its
commit on. At any point it may be rolled back, and then be run again from its
start or be given up, and the word that it was committed may be lost.
-/
import Mathlib.Data.Set.Insert
import Mathlib.Logic.Function.Basic

namespace GpuBroker.Library

/-- A transaction as its statements, run one at a time. -/
inductive Script (Store Row Lock Error Result : Type) : Type 1 where
  | done (result : Result)
  | fail (error : Error)
  | claim (lock : Lock) (next : Script Store Row Lock Error Result)
  | statement {Value : Type} (run : Store → List Row → Value × List Row)
      (next : Value → Script Store Row Lock Error Result)

namespace Script

variable {Store Row Lock Error Result Other Part PartRow PartLock : Type}

/-- Run a script and go on with its result. -/
def bind (first : Script Store Row Lock Error Other) (rest : Other → Script Store Row Lock Error Result) :
    Script Store Row Lock Error Result :=
  match first with
  | done result => rest result
  | fail error => fail error
  | claim lock next => claim lock (next.bind rest)
  | statement run next => statement run fun value => (next value).bind rest

instance : Monad (Script Store Row Lock Error) where
  pure := done
  bind := bind

/-- A script on a part of a store, as one on the whole store. -/
def within (part : Store → Part) (own : Row → Option PartRow) (row : PartRow → Row) (lock : PartLock → Lock) :
    Script Part PartRow PartLock Error Result → Script Store Row Lock Error Result
  | done result => done result
  | fail error => fail error
  | claim one next => claim (lock one) (next.within part own row lock)
  | statement run next =>
      statement
        (fun store written =>
          let (value, rows) := run (part store) (written.filterMap own)
          (value, rows.map row))
        fun value => (next value).within part own row lock

/-- What a script comes to when nothing else is in progress, and what it has then written. -/
def alone : Script Store Row Lock Error Result → Store → List Row → Except Error (Result × List Row)
  | done result, _, written => .ok (result, written)
  | fail error, _, _ => .error error
  | claim _ next, store, written => next.alone store written
  | statement run next, store, written =>
      let (value, rows) := run store written
      (next value).alone store (written ++ rows)

theorem alone_bind (first : Script Store Row Lock Error Other)
    (rest : Other → Script Store Row Lock Error Result) (store : Store) (written : List Row) :
    (first.bind rest).alone store written =
      (first.alone store written).bind fun end_ => (rest end_.1).alone store end_.2 := by
  induction first generalizing written with
  | done | fail => rfl
  | claim lock next inductionHypothesis => exact inductionHypothesis written
  | statement run next inductionHypothesis => exact inductionHypothesis _ _

theorem alone_within (part : Store → Part) {own : Row → Option PartRow} {row : PartRow → Row}
    (lock : PartLock → Lock) (mine : ∀ one, own (row one) = some one)
    (script : Script Part PartRow PartLock Error Result) (store : Store) (written : List PartRow) :
    (script.within part own row lock).alone store (written.map row) =
      (script.alone (part store) written).map fun end_ => (end_.1, end_.2.map row) := by
  induction script generalizing written with
  | done | fail => rfl
  | claim one next inductionHypothesis => exact inductionHypothesis written
  | statement run next inductionHypothesis =>
      have back : (written.map row).filterMap own = written := by
        rw [List.filterMap_map, show own ∘ row = some from funext mine, List.filterMap_some]
      simp only [within, alone, back]
      rw [← List.map_append]
      exact inductionHypothesis _ _

end Script

/-- How a transaction ended for whoever asked for it: with its result, with the error it raised, or
without a word. -/
inductive Ending (Error Result : Type) where
  | answered (result : Result)
  | raised (error : Error)
  | lost
  deriving DecidableEq

/-- A transaction is running, what is left of it beside what it has written, or has ended. -/
inductive Stage (Store Row Lock Error Result : Type) : Type 1 where
  | running (script : Script Store Row Lock Error Result) (written : List Row)
  | ended (ending : Ending Error Result)

/-- Transactions in progress: what is committed, who holds each lock, how far each transaction is, and
the commits so far. -/
structure Sessions (Store Row Lock Error Result Session : Type) : Type 1 where
  store : Store
  owner : Lock → Option Session
  stage : Session → Stage Store Row Lock Error Result
  log : List (Session × List Row)

/-- What can happen next: a transaction makes its next step; it is rolled back and run again, or given
up; it is committed and the word of it lost; or something else changes the store. -/
inductive Incident (Store Session : Type) where
  | turn (one : Session)
  | again (one : Session)
  | drop (one : Session)
  | cut (one : Session)
  | outside (change : Store → Store)

/-- How a transaction ended, once it has. -/
def Stage.ending {Store Row Lock Error Result : Type} :
    Stage Store Row Lock Error Result → Option (Ending Error Result)
  | running _ _ => none
  | ended ending => some ending

/-- The store is not changed from outside. -/
def Incident.inside {Store Session : Type} : Incident Store Session → Bool
  | outside _ => false
  | _ => true

namespace Sessions

variable {Store Row Lock Error Result Session : Type} [DecidableEq Session] [DecidableEq Lock]
  (write : Store → Row → Store) (scripts : Session → Script Store Row Lock Error Result)

/-- Nothing has begun. -/
def opening (store : Store) : Sessions Store Row Lock Error Result Session where
  store
  owner _ := none
  stage one := .running (scripts one) []
  log := []

/-- A transaction gives back its locks and comes to a stage. -/
def leave (sessions : Sessions Store Row Lock Error Result Session) (one : Session)
    (stage : Stage Store Row Lock Error Result) : Sessions Store Row Lock Error Result Session :=
  { sessions with
    owner := fun lock => if sessions.owner lock = some one then none else sessions.owner lock
    stage := Function.update sessions.stage one stage }

/-- A transaction is committed: the store has what it has written, and its locks are free. -/
def commit (sessions : Sessions Store Row Lock Error Result Session) (one : Session) (written : List Row)
    (ending : Ending Error Result) : Sessions Store Row Lock Error Result Session :=
  { sessions.leave one (.ended ending) with
    store := written.foldl write sessions.store
    log := sessions.log ++ [(one, written)] }

/-- A transaction makes its next step, or waits for a lock another holds. -/
def advance (sessions : Sessions Store Row Lock Error Result Session) (one : Session) :
    Sessions Store Row Lock Error Result Session :=
  match sessions.stage one with
  | .ended _ => sessions
  | .running (.done result) written => sessions.commit write one written (.answered result)
  | .running (.fail error) _ => sessions.leave one (.ended (.raised error))
  | .running (.claim lock next) written =>
      if sessions.owner lock = none ∨ sessions.owner lock = some one then
        { sessions with
          owner := Function.update sessions.owner lock (some one)
          stage := Function.update sessions.stage one (.running next written) }
      else sessions
  | .running (.statement run next) written =>
      let (value, rows) := run sessions.store written
      { sessions with stage := Function.update sessions.stage one (.running (next value) (written ++ rows)) }

/-- What happens next. -/
def step (sessions : Sessions Store Row Lock Error Result Session) :
    Incident Store Session → Sessions Store Row Lock Error Result Session
  | .turn one => sessions.advance write one
  | .again one =>
      match sessions.stage one with
      | .running _ _ => sessions.leave one (.running (scripts one) [])
      | .ended _ => sessions
  | .drop one =>
      match sessions.stage one with
      | .running _ _ => sessions.leave one (.ended .lost)
      | .ended _ => sessions
  | .cut one =>
      match sessions.stage one with
      | .running (.done _) written => sessions.commit write one written .lost
      | _ => sessions
  | .outside change => { sessions with store := change sessions.store }

/-- What happens, one incident after another. -/
def run (sessions : Sessions Store Row Lock Error Result Session) (incidents : List (Incident Store Session)) :
    Sessions Store Row Lock Error Result Session :=
  incidents.foldl (step write scripts) sessions

/-! ### What a step can do -/

/-- What a step can do: nothing; claim a lock that is free, or held already; run a statement; commit,
whether the word of it arrives or not; or roll back. -/
inductive Moves (before : Sessions Store Row Lock Error Result Session) :
    Sessions Store Row Lock Error Result Session → Prop
  | idle : Moves before before
  | claims {one : Session} {lock : Lock} {next : Script Store Row Lock Error Result} {written : List Row}
      (running : before.stage one = .running (.claim lock next) written)
      (free : ∀ other, before.owner lock = some other → other = one) :
      Moves before
        { before with
          owner := Function.update before.owner lock (some one)
          stage := Function.update before.stage one (.running next written) }
  | states {one : Session} {Value : Type} {action : Store → List Row → Value × List Row}
      {next : Value → Script Store Row Lock Error Result} {written : List Row}
      (running : before.stage one = .running (.statement action next) written) :
      Moves before
        { before with
          stage := Function.update before.stage one
            (.running (next (action before.store written).1) (written ++ (action before.store written).2)) }
  | commits {one : Session} {result : Result} {written : List Row} {ending : Ending Error Result}
      (running : before.stage one = .running (.done result) written)
      (told : ending = .answered result ∨ ending = .lost) : Moves before (before.commit write one written ending)
  | leaves {one : Session} {script : Script Store Row Lock Error Result} {written : List Row}
      {stage : Stage Store Row Lock Error Result} (running : before.stage one = .running script written)
      (back : stage = .running (scripts one) [] ∨ stage = .ended .lost ∨
        ∃ error, script = .fail error ∧ stage = .ended (.raised error)) : Moves before (before.leave one stage)

theorem advance_moves (sessions : Sessions Store Row Lock Error Result Session) (one : Session) :
    Moves write scripts sessions (sessions.advance write one) := by
  unfold advance
  cases at_ : sessions.stage one with
  | ended ending => exact .idle
  | running script written =>
      cases script with
      | done result => exact .commits at_ (Or.inl rfl)
      | fail error => exact .leaves at_ (Or.inr (Or.inr ⟨error, rfl, rfl⟩))
      | statement action next => exact .states at_
      | claim lock next =>
          simp only
          split
          · next free =>
            refine .claims at_ fun other held => ?_
            rw [held] at free
            exact Option.some.inj (free.resolve_left nofun)
          · exact .idle

theorem step_moves (sessions : Sessions Store Row Lock Error Result Session) (incident : Incident Store Session)
    (inside : ∀ change, incident ≠ .outside change) :
    Moves write scripts sessions (sessions.step write scripts incident) := by
  cases incident with
  | turn one => exact advance_moves write scripts sessions one
  | again one =>
      cases at_ : sessions.stage one with
      | ended ending =>
          simp only [step, at_]
          exact .idle
      | running script written =>
          simp only [step, at_]
          exact .leaves at_ (Or.inl rfl)
  | drop one =>
      cases at_ : sessions.stage one with
      | ended ending =>
          simp only [step, at_]
          exact .idle
      | running script written =>
          simp only [step, at_]
          exact .leaves at_ (Or.inr (Or.inl rfl))
  | cut one =>
      simp only [step]
      split
      · next at_ => exact .commits at_ (Or.inr rfl)
      · exact .idle
  | outside change => exact absurd rfl (inside change)

/-! ### What is said of a transaction while it runs -/

/-- The locks a transaction holds. -/
def held (sessions : Sessions Store Row Lock Error Result Session) (one : Session) : Set Lock :=
  {lock | sessions.owner lock = some one}

/-- Every change from outside along a run is one the predicate permits in the store before it. -/
def Permitted (permits : (Store → Store) → Store → Prop) :
    List (Incident Store Session) → Sessions Store Row Lock Error Result Session → Prop
  | [], _ => True
  | incident :: rest, sessions =>
      (∀ change, incident = .outside change → permits change sessions.store) ∧
        Permitted permits rest (sessions.step write scripts incident)

theorem permitted_inside {permits : (Store → Store) → Store → Prop} {incidents : List (Incident Store Session)}
    (inside : incidents.all Incident.inside = true) (sessions : Sessions Store Row Lock Error Result Session) :
    Permitted write scripts permits incidents sessions := by
  induction incidents generalizing sessions with
  | nil => trivial
  | cons incident rest inductionHypothesis =>
      obtain ⟨first, later⟩ := Bool.and_eq_true_iff.mp inside
      refine ⟨fun change outside => ?_, inductionHypothesis later _⟩
      rw [outside] at first
      cases first

/-- What is said of a transaction at each point, from the store, the locks it holds, what is left of it
and what it has written. It holds at the start and stays with each step of its own, with a commit of
one that holds other locks, and with the changes from outside that are permitted. -/
structure Discipline where
  stands : Store → Set Lock → Session → Script Store Row Lock Error Result → List Row → Prop
  permits : (Store → Store) → Store → Prop
  begins : ∀ store one, stands store ∅ one (scripts one) []
  claims : ∀ {store locks one lock next written}, stands store locks one (.claim lock next) written →
    stands store (insert lock locks) one next written
  states : ∀ {store locks one} {Value : Type} {action : Store → List Row → Value × List Row} {next written},
    stands store locks one (.statement action next) written →
      stands store locks one (next (action store written).1) (written ++ (action store written).2)
  beside : ∀ {store locks one script written others other result rows}, one ≠ other →
    (∀ lock ∈ locks, lock ∉ others) → stands store others other (.done result) rows →
      stands store locks one script written → stands (rows.foldl write store) locks one script written
  outside : ∀ {store locks one script written change}, permits change store →
    stands store locks one script written → stands (change store) locks one script written

variable {write scripts}

/-- Every transaction that is running is where the discipline says. -/
def Discipline.Stand (discipline : Discipline write scripts)
    (sessions : Sessions Store Row Lock Error Result Session) : Prop :=
  ∀ one script written, sessions.stage one = .running script written →
    discipline.stands sessions.store (sessions.held one) one script written

omit [DecidableEq Lock] in
theorem held_leave {sessions : Sessions Store Row Lock Error Result Session} {one : Session}
    {stage : Stage Store Row Lock Error Result} (other : Session) :
    (sessions.leave one stage).held other = if other = one then ∅ else sessions.held other := by
  ext lock
  show (if sessions.owner lock = some one then none else sessions.owner lock) = some other ↔ _
  by_cases mine : other = one
  · rw [if_pos mine, mine]
    split
    · simp
    · next apart => simpa using apart
  · rw [if_neg mine]
    show _ ↔ sessions.owner lock = some other
    split
    · next owned =>
      rw [owned]
      exact ⟨nofun, fun same => absurd (Option.some.inj same).symm mine⟩
    · rfl

omit [DecidableEq Lock] in
theorem Discipline.Stand.leave {discipline : Discipline write scripts}
    {sessions : Sessions Store Row Lock Error Result Session} (stand : discipline.Stand sessions) {one : Session}
    {stage : Stage Store Row Lock Error Result}
    (back : ∀ script written, stage = .running script written → script = scripts one ∧ written = []) :
    discipline.Stand (sessions.leave one stage) := by
  intro other script written running
  rw [held_leave]
  have at_ : Function.update sessions.stage one stage other = .running script written := running
  by_cases mine : other = one
  · rw [mine, Function.update_self] at at_
    obtain ⟨rfl, rfl⟩ := back script written at_
    rw [if_pos mine, mine]
    exact discipline.begins _ one
  · rw [Function.update_of_ne mine] at at_
    rw [if_neg mine]
    exact stand other script written at_

/-- A step leaves every transaction where the discipline says. -/
theorem Discipline.Stand.moves {discipline : Discipline write scripts}
    {before after : Sessions Store Row Lock Error Result Session} (stand : discipline.Stand before)
    (moved : Moves write scripts before after) : discipline.Stand after := by
  cases moved with
  | idle => exact stand
  | claims running free =>
      rename_i one lock next written
      intro other script rows at_
      have at_ : Function.update before.stage one (.running next written) other = .running script rows := at_
      by_cases mine : other = one
      · subst mine
        rw [Function.update_self] at at_
        cases at_
        have grown : {taken | Function.update before.owner lock (some other) taken = some other} =
            insert lock (before.held other) := by
          ext taken
          rw [Set.mem_insert_iff]
          show Function.update before.owner lock (some other) taken = some other ↔
            taken = lock ∨ before.owner taken = some other
          by_cases same : taken = lock
          · simp [same]
          · simp [same]
        show discipline.stands before.store {taken | Function.update before.owner lock (some other) taken = some other}
          other _ _
        rw [grown]
        exact discipline.claims (stand other _ _ running)
      · rw [Function.update_of_ne mine] at at_
        have same : {taken | Function.update before.owner lock (some one) taken = some other} =
            before.held other := by
          ext taken
          show Function.update before.owner lock (some one) taken = some other ↔ before.owner taken = some other
          by_cases here : taken = lock
          · subst here
            rw [Function.update_self]
            exact ⟨fun owned => absurd (Option.some.inj owned).symm mine,
              fun owned => absurd (free other owned) mine⟩
          · rw [Function.update_of_ne here]
        show discipline.stands before.store {taken | Function.update before.owner lock (some one) taken = some other}
          other _ _
        rw [same]
        exact stand other script rows at_
  | states running =>
      rename_i one Value action next written
      intro other script rows at_
      by_cases mine : other = one
      · subst mine
        simp only [Function.update_self, Stage.running.injEq] at at_
        obtain ⟨rfl, rfl⟩ := at_
        exact discipline.states (stand other _ _ running)
      · simp only [Function.update_of_ne mine] at at_
        exact stand other script rows at_
  | leaves running back =>
      refine stand.leave fun script written at_ => ?_
      rcases back with start | lost | ⟨error, _, raised⟩
      · rw [start] at at_
        cases at_
        exact ⟨rfl, rfl⟩
      · rw [lost] at at_
        cases at_
      · rw [raised] at at_
        cases at_
  | commits running told =>
      rename_i one result rows ending
      have left : discipline.Stand (before.leave one (.ended ending)) := stand.leave nofun
      intro other script written at_
      have apart : other ≠ one := by
        rintro rfl
        have ended : Function.update before.stage other (.ended ending) other = .running script written := at_
        rw [Function.update_self] at ended
        cases ended
      have here := left other script written at_
      rw [held_leave, if_neg apart] at here
      show discipline.stands (rows.foldl write before.store) ((before.leave one (.ended ending)).held other) other
        script written
      rw [held_leave, if_neg apart]
      refine discipline.beside apart (fun lock mine taken => ?_) (stand one _ _ running) here
      exact apart (Option.some.inj (Eq.trans (Eq.symm mine) taken))

/-- The rule of a run: what the discipline says of each transaction holds along it, and so does what every
step keeps wherever the discipline holds. -/
theorem Discipline.run (discipline : Discipline write scripts)
    {kept : Sessions Store Row Lock Error Result Session → Prop}
    {sessions : Sessions Store Row Lock Error Result Session} {incidents : List (Incident Store Session)}
    (permitted : Permitted write scripts discipline.permits incidents sessions)
    (moves : ∀ before after, discipline.Stand before → Moves write scripts before after → kept before → kept after)
    (changes : ∀ before change, discipline.permits change before.store → kept before →
      kept { before with store := change before.store })
    (stand : discipline.Stand sessions) (start : kept sessions) :
    discipline.Stand (sessions.run write scripts incidents) ∧ kept (sessions.run write scripts incidents) := by
  induction incidents generalizing sessions with
  | nil => exact ⟨stand, start⟩
  | cons incident rest inductionHypothesis =>
      obtain ⟨first, later⟩ := permitted
      by_cases inside : ∀ change, incident ≠ .outside change
      · have moved := step_moves write scripts sessions incident inside
        exact inductionHypothesis later (stand.moves moved) (moves _ _ stand moved start)
      · obtain ⟨change, same⟩ := not_forall.mp inside
        have outside : incident = .outside change := not_not.mp same
        subst outside
        refine inductionHypothesis later (fun one script written at_ => ?_)
          (changes sessions change (first change rfl) start)
        exact discipline.outside (first change rfl) (stand one script written at_)

omit [DecidableEq Session] [DecidableEq Lock] in
theorem Discipline.stand_opening (discipline : Discipline write scripts) (store : Store) :
    discipline.Stand (opening scripts store) := by
  intro one script written at_
  cases at_
  have free : (opening scripts store : Sessions Store Row Lock Error Result Session).held one = ∅ := by
    ext lock
    simp [held, opening]
  rw [free]
  exact discipline.begins store one

/-- What a run of transactions keeps of any of them: a commit ends its transaction, and not with an
error; and a lock is held by a transaction that is running. -/
structure Honest (sessions : Sessions Store Row Lock Error Result Session) : Prop where
  logged : ∀ entry ∈ sessions.log,
    sessions.stage entry.1 = .ended .lost ∨ ∃ result, sessions.stage entry.1 = .ended (.answered result)
  locked : ∀ lock one, sessions.owner lock = some one →
    ∃ script written, sessions.stage one = .running script written

omit [DecidableEq Session] [DecidableEq Lock] in
theorem Honest.opening (store : Store) :
    Honest (opening scripts store : Sessions Store Row Lock Error Result Session) :=
  ⟨fun _ => nofun, fun _ _ => nofun⟩

omit [DecidableEq Lock] in
/-- A running transaction that steps on and takes no lock stays so, and so do the others. -/
theorem Honest.stays {sessions : Sessions Store Row Lock Error Result Session} (honest : Honest sessions)
    {one : Session} {script next : Script Store Row Lock Error Result} {written rows : List Row}
    (running : sessions.stage one = .running script written) {owner : Lock → Option Session}
    (owners : ∀ lock other, owner lock = some other → other = one ∨ sessions.owner lock = some other) :
    Honest { sessions with owner, stage := Function.update sessions.stage one (.running next rows) } := by
  refine ⟨fun entry member => ?_, fun lock other owned => ?_⟩
  · have apart : entry.1 ≠ one := by
      intro same
      rcases honest.logged entry member with lost | ⟨result, answered⟩
      · rw [same, running] at lost
        cases lost
      · rw [same, running] at answered
        cases answered
    show Function.update sessions.stage one _ entry.1 = _ ∨ ∃ result, Function.update sessions.stage one _ entry.1 = _
    rw [Function.update_of_ne apart]
    exact honest.logged entry member
  · show ∃ script written, Function.update sessions.stage one _ other = .running script written
    by_cases mine : other = one
    · rw [mine, Function.update_self]
      exact ⟨next, rows, rfl⟩
    · rw [Function.update_of_ne mine]
      exact honest.locked lock other ((owners lock other owned).resolve_left mine)

omit [DecidableEq Lock] in
theorem Honest.leave {sessions : Sessions Store Row Lock Error Result Session} (honest : Honest sessions)
    {one : Session} {script : Script Store Row Lock Error Result} {written : List Row}
    {stage : Stage Store Row Lock Error Result} (running : sessions.stage one = .running script written) :
    Honest (sessions.leave one stage) := by
  have unlogged : ∀ entry ∈ sessions.log, entry.1 ≠ one := by
    intro entry member same
    rcases honest.logged entry member with lost | ⟨result, answered⟩
    · rw [same, running] at lost
      cases lost
    · rw [same, running] at answered
      cases answered
  refine ⟨fun entry member => ?_, fun lock other owned => ?_⟩
  · show Function.update sessions.stage one stage entry.1 = _ ∨
      ∃ result, Function.update sessions.stage one stage entry.1 = _
    rw [Function.update_of_ne (unlogged entry member)]
    exact honest.logged entry member
  · have owned : lock ∈ (sessions.leave one stage).held other := owned
    rw [held_leave] at owned
    by_cases mine : other = one
    · rw [if_pos mine] at owned
      cases owned
    · rw [if_neg mine] at owned
      show ∃ script written, Function.update sessions.stage one stage other = .running script written
      rw [Function.update_of_ne mine]
      exact honest.locked lock other owned

theorem Honest.moves {before after : Sessions Store Row Lock Error Result Session} (honest : Honest before)
    (moved : Moves write scripts before after) : Honest after := by
  cases moved with
  | idle => exact honest
  | claims running free =>
      refine honest.stays running fun taken other owned => ?_
      rename_i one lock next written
      by_cases same : taken = lock
      · rw [same, Function.update_self] at owned
        exact Or.inl (Option.some.inj owned).symm
      · rw [Function.update_of_ne same] at owned
        exact Or.inr owned
  | states running => exact honest.stays running fun _ _ owned => Or.inr owned
  | leaves running back => exact honest.leave running
  | commits running told =>
      rename_i one result written ending
      have left : Honest (before.leave one (.ended ending)) := honest.leave running
      refine ⟨fun entry member => ?_, left.locked⟩
      rcases List.mem_append.mp member with earlier | last
      · exact left.logged entry earlier
      · rw [List.mem_singleton.mp last]
        show Function.update before.stage one (.ended ending) one = _ ∨
          ∃ result, Function.update before.stage one (.ended ending) one = _
        rw [Function.update_self]
        rcases told with answered | lost
        · exact Or.inr ⟨result, congrArg Stage.ended answered⟩
        · exact Or.inl (congrArg Stage.ended lost)

/-! ### A transaction that nothing disturbs -/

/-- A transaction that no one else's lock stands in the way of comes to what it comes to alone. -/
theorem run_alone (script : Script Store Row Lock Error Result) {written : List Row}
    {sessions : Sessions Store Row Lock Error Result Session} {one : Session}
    (running : sessions.stage one = .running script written)
    (free : ∀ lock other, sessions.owner lock = some other → other = one) {result : Result} {rows : List Row}
    (comes : script.alone sessions.store written = .ok (result, rows)) :
    ∃ length, (sessions.run write scripts (List.replicate length (.turn one))).stage one =
        .ended (.answered result) ∧
      (sessions.run write scripts (List.replicate length (.turn one))).log = sessions.log ++ [(one, rows)] ∧
      (sessions.run write scripts (List.replicate length (.turn one))).store = rows.foldl write sessions.store := by
  induction script generalizing written sessions with
  | done value =>
      cases comes
      refine ⟨1, ?_⟩
      have stepped : sessions.run write scripts [.turn one] = sessions.commit write one rows (.answered result) := by
        show sessions.advance write one = _
        unfold advance
        rw [running]
      rw [List.replicate_one, stepped]
      exact ⟨Function.update_self .., rfl, rfl⟩
  | fail error => cases comes
  | claim lock next inductionHypothesis =>
      let after : Sessions Store Row Lock Error Result Session :=
        { sessions with
          owner := Function.update sessions.owner lock (some one)
          stage := Function.update sessions.stage one (.running next written) }
      have stepped : sessions.step write scripts (.turn one) = after := by
        show sessions.advance write one = _
        unfold advance
        rw [running]
        refine if_pos ?_
        cases owned : sessions.owner lock with
        | none => exact Or.inl rfl
        | some other => exact Or.inr (congrArg some (free lock other owned))
      have owners : ∀ taken other, after.owner taken = some other → other = one := fun taken other owned => by
        by_cases same : taken = lock
        · subst same
          rw [show after.owner taken = some one from Function.update_self ..] at owned
          exact (Option.some.inj owned).symm
        · exact free taken other ((Function.update_of_ne same ..).symm.trans owned)
      obtain ⟨length, done⟩ := @inductionHypothesis written after (Function.update_self ..) owners comes
      refine ⟨length + 1, ?_⟩
      rw [List.replicate_succ, Sessions.run, List.foldl_cons, stepped]
      exact done
  | statement action next inductionHypothesis =>
      let after : Sessions Store Row Lock Error Result Session :=
        { sessions with
          stage := Function.update sessions.stage one
            (.running (next (action sessions.store written).1) (written ++ (action sessions.store written).2)) }
      have stepped : sessions.step write scripts (.turn one) = after := by
        show sessions.advance write one = _
        unfold advance
        rw [running]
      obtain ⟨length, done⟩ := @inductionHypothesis (action sessions.store written).1 _ after
        (Function.update_self ..) free comes
      refine ⟨length + 1, ?_⟩
      rw [List.replicate_succ, Sessions.run, List.foldl_cons, stepped]
      exact done

end Sessions

end GpuBroker.Library
