/-
This file proves the leader's fencing under any interleaving.

Here a scheduler's transaction is no longer one step. It begins, it reads the
leader row FOR SHARE and finds its own epoch or is fenced, and some time later
it commits or aborts; in between anything may happen, including the loss of its
leadership. What the database promises is the row lock: the update that makes a
new epoch waits until no transaction shares the leader row. From that alone a
transaction that passed its check still runs under the current epoch when it
commits, however late that is.
-/
import Mathlib.Logic.Function.Basic
import GpuBroker.ControlPlane.Runs

namespace GpuBroker.ControlPlane

open Library Library.Transaction

/-! ### Schedulers side by side -/

/-- A connection to the database; there may be any number. -/
abbrev Session := Nat

/-- A decision a scheduler is to apply as the leader of an epoch, with the ids and clock readings
of its transaction. -/
structure Order where
  epoch : Int
  tick : String
  decision : Decision
  attempt : AttemptID
  reservation : ReservationID
  now : Time
  appliedAt : Time

/-- How far a session's transaction has come. -/
inductive Phase
  | idle
  | begun (order : Order)
  /-- It has read its own epoch from the leader row, and shares that row until it ends. -/
  | checked (order : Order)

structure World where
  /-- What is committed. -/
  base : Database
  /-- The session that holds the leader's advisory lock. -/
  holder : Option Session
  /-- The sessions that share the leader row. -/
  sharing : List Session
  phase : Session → Phase

def World.initial : World where
  base := .initial
  holder := none
  sharing := []
  phase := fun _ => .idle

/-- What can happen next. -/
inductive Act
  /-- Any other transaction of the control plane. -/
  | request (asked : Request)
  /-- A session tries the advisory lock. -/
  | tryLock (session : Session)
  /-- The session that got it updates the leader row. -/
  | advance (session : Session)
  /-- The connection of the advisory lock is closed or lost. -/
  | disconnect
  | begin (session : Session) (order : Order)
  | check (session : Session)
  | finish (session : Session)
  | abort (session : Session)

/-- What an observer of the commits sees of the schedulers: a new epoch, or a decision committed,
be it a placement, a delay, an expiry, a preemption or a record of waiting. -/
inductive Event
  | led (epoch : Int)
  | committed (order : Order)

/-- The session's transaction ends, and with it its share of the leader row. -/
def World.ended (world : World) (session : Session) : World :=
  { world with
    sharing := world.sharing.erase session
    phase := Function.update world.phase session .idle }

/-- The update of the leader row, which waits while anybody shares the row. -/
def World.advance (service : Service) (world : World) (session : Session) : World × Option Event :=
  if world.holder = some session ∧ world.sharing = [] then
    let base := Call.tryLead.perform service world.base
    ({ world with base := base }, some (.led base.epoch))
  else (world, none)

/-- A session without a transaction begins one. -/
def World.begin (world : World) (session : Session) (order : Order) : World :=
  match world.phase session with
  | .idle => { world with phase := Function.update world.phase session (.begun order) }
  | _ => world

/-- The epoch check of a transaction that began: it goes on, sharing the leader row, or is fenced
and ends. -/
def World.check (world : World) (session : Session) : World :=
  match world.phase session with
  | .begun order =>
      if world.base.epoch = order.epoch then
        { world with
          sharing := session :: world.sharing
          phase := Function.update world.phase session (.checked order) }
      else world.ended session
  | _ => world

/-- The rest of a transaction that passed its check: it commits its decision, or fails. -/
def World.finish (world : World) (session : Session) : World × Option Event :=
  match world.phase session with
  | .checked order =>
      match onTables (Service.enact order.epoch order.tick order.decision order.attempt
          order.reservation order.now order.appliedAt) world.base with
      | .ok (_, base) => ({ world.ended session with base := base }, some (.committed order))
      | .error _ => (world.ended session, none)
  | _ => (world, none)

/-- One act. An act that is not enabled changes nothing. -/
def World.act (service : Service) (world : World) : Act → World × Option Event
  | .request asked =>
      ({ world with base := (Call.request asked).perform service world.base }, none)
  | .tryLock session =>
      (if world.holder.isNone then { world with holder := some session } else world, none)
  | .advance session => world.advance service session
  | .disconnect => ({ world with holder := none }, none)
  | .begin session order => (world.begin session order, none)
  | .check session => (world.check session, none)
  | .finish session => world.finish session
  | .abort session => (world.ended session, none)

/-- The world after a sequence of acts, and what was seen on the way. -/
def World.run (service : Service) : List Act → World → World × List Event
  | [], world => (world, [])
  | act :: rest, world =>
      let (next, event) := world.act service act
      let (last, events) := World.run service rest next
      (last, event.toList ++ events)

/-! ### What the row lock keeps -/

/-- The epochs of the reservations, in the order they were inserted. -/
def epochsOf (books : Books) : List Int := books.reservations.rows.map Reservation.epoch

structure Fenced (world : World) : Prop where
  balanced : Balanced world.base.toBooks
  /-- A transaction that passed its check shares the leader row and runs under the current
  epoch. -/
  checked : ∀ session order, world.phase session = .checked order →
    session ∈ world.sharing ∧ order.epoch = world.base.epoch
  sorted : (epochsOf world.base.toBooks).Pairwise (· ≤ ·)
  bounded : ∀ epoch ∈ epochsOf world.base.toBooks, epoch ≤ world.base.epoch

theorem epochsOf_moves {books next : Books} (moved : Moves books next) :
    epochsOf next = epochsOf books := by
  induction moved with
  | refl => rfl
  | tail _ last inductionHypothesis =>
      rw [← inductionHypothesis]
      cases last <;> rfl

/-- Only a placement adds to the reservations' epochs. -/
theorem epochsOf_turn {books next : Books} (taken : Turn books next) :
    epochsOf next = epochsOf books := by
  cases taken with
  | moves moved => exact epochsOf_moves moved
  | close closing =>
      show (List.map _ (List.map _ _)) = _
      rw [List.map_map]
      refine List.map_congr_left fun row _ => ?_
      show Reservation.epoch (if _ then _ else _) = _
      split <;> rfl

theorem epochsOf_place {books : Books} (placement : Placement books) :
    epochsOf placement.result = epochsOf books ++ [placement.epoch] := by
  show List.map _ placement.reservations.rows = _
  rw [(Table.insert_eq_some placement.reservationInserted).2, List.map_append]
  rfl

/-- A request leaves the leader row and the reservations' epochs alone. -/
theorem request_fenced {service : Service} {asked : Request} {base : Database}
    (balanced : Balanced base.toBooks) :
    ((Call.request asked).perform service base).epoch = base.epoch ∧
      epochsOf ((Call.request asked).perform service base).toBooks = epochsOf base.toBooks := by
  rcases commit_cases ((Call.request asked).body service) base with ⟨_, finished, _⟩ | unchanged
  · obtain ⟨ran, epoch⟩ := onTables_ok.mp finished
    exact ⟨epoch, epochsOf_turn (asked.turns service balanced ran)⟩
  · unfold Call.perform
    rw [unchanged]
    exact ⟨rfl, rfl⟩

/-- What one act does: it keeps the fence, the epoch never falls, a new epoch is above the old one,
and a decision that commits runs under the epoch of that moment. -/
structure Guarded (world next : World) (event : Option Event) : Prop where
  fenced : Fenced next
  grows : world.base.epoch ≤ next.base.epoch
  led : ∀ epoch, event = some (.led epoch) → epoch = next.base.epoch ∧ world.base.epoch < epoch
  committed : ∀ order, event = some (.committed order) → order.epoch = world.base.epoch

/-- An act that nobody sees is guarded when it keeps the fence and the epoch does not fall. -/
theorem Guarded.unseen {world next : World} (fenced : Fenced next)
    (grows : world.base.epoch ≤ next.base.epoch) : Guarded world next none where
  fenced := fenced
  grows := grows
  led _ seen := absurd seen.symm (Option.some_ne_none _)
  committed _ seen := absurd seen.symm (Option.some_ne_none _)

/-- An act that only touches phases and locks is guarded when the phases it leaves are. -/
theorem Fenced.quiet {world next : World} (fenced : Fenced world) (same : next.base = world.base)
    (checked : ∀ session order, next.phase session = .checked order →
      session ∈ next.sharing ∧ order.epoch = world.base.epoch) : Guarded world next none := by
  refine .unseen ⟨?_, ?_, ?_, ?_⟩ (le_of_eq (congrArg Database.epoch same.symm))
  · rw [same]
    exact fenced.balanced
  · rw [same]
    exact checked
  · rw [same]
    exact fenced.sorted
  · rw [same]
    exact fenced.bounded

/-- When a session's transaction ends, the others still share the row. -/
theorem Fenced.ended_checked {world : World} (fenced : Fenced world) {session other : Session}
    {order : Order} (phase : (world.ended session).phase other = .checked order) :
    other ∈ (world.ended session).sharing ∧ order.epoch = world.base.epoch := by
  change Function.update world.phase session .idle other = .checked order at phase
  by_cases same : other = session
  · rw [same, Function.update_self] at phase
    cases phase
  · rw [Function.update_of_ne same] at phase
    obtain ⟨shares, current⟩ := fenced.checked other order phase
    exact ⟨(List.mem_erase_of_ne same).mpr shares, current⟩

theorem Fenced.ended {world : World} (fenced : Fenced world) (session : Session) :
    Guarded world (world.ended session) none :=
  fenced.quiet rfl fun _ _ phase => fenced.ended_checked phase

theorem Fenced.request (service : Service) {world : World} (fenced : Fenced world)
    (asked : Request) :
    Guarded world { world with base := (Call.request asked).perform service world.base } none := by
  obtain ⟨epoch, epochs⟩ := @request_fenced service asked _ fenced.balanced
  have balanced := fenced.balanced.change
    ((Call.request asked).perform_changes service fenced.balanced)
  refine .unseen ⟨balanced, ?_, ?_, ?_⟩ (le_of_eq epoch.symm)
  · intro session order phase
    show _ ∧ _ = ((Call.request asked).perform service world.base).epoch
    rw [epoch]
    exact fenced.checked session order phase
  · show (epochsOf ((Call.request asked).perform service world.base).toBooks).Pairwise _
    rw [epochs]
    exact fenced.sorted
  · show ∀ each ∈ epochsOf ((Call.request asked).perform service world.base).toBooks,
      each ≤ ((Call.request asked).perform service world.base).epoch
    rw [epochs, epoch]
    exact fenced.bounded

theorem Fenced.advance (service : Service) {world : World} (fenced : Fenced world)
    (session : Session) :
    Guarded world (world.advance service session).1 (world.advance service session).2 := by
  unfold World.advance
  split
  · next enabled =>
    obtain ⟨_, alone⟩ := enabled
    have next : world.base.epoch < (Call.tryLead.perform service world.base).epoch :=
      lt_add_one world.base.epoch
    refine ⟨⟨fenced.balanced, ?_, fenced.sorted, ?_⟩, le_of_lt next, ?_,
      fun _ committed => Event.noConfusion (Option.some.inj committed)⟩
    · -- nobody shares the row, so no transaction is past its check
      intro other order phase
      have shares := (fenced.checked other order phase).1
      rw [alone] at shares
      exact absurd shares List.not_mem_nil
    · exact fun epoch member => le_trans (fenced.bounded epoch member) (le_of_lt next)
    · intro epoch same
      cases same
      exact ⟨rfl, next⟩
  · exact fenced.quiet rfl fenced.checked

/-- Setting one session's phase leaves what the others' phases were. -/
theorem Fenced.update_checked {world : World} (fenced : Fenced world) {session other : Session}
    {phase : Phase} {order : Order} (differs : other ≠ session)
    (checked : Function.update world.phase session phase other = .checked order) :
    other ∈ world.sharing ∧ order.epoch = world.base.epoch := by
  rw [Function.update_of_ne differs] at checked
  exact fenced.checked other order checked

theorem Fenced.begin {world : World} (fenced : Fenced world) (session : Session) (order : Order) :
    Guarded world (world.begin session order) none := by
  unfold World.begin
  split
  · refine fenced.quiet rfl fun other again checked => ?_
    change Function.update world.phase session (.begun order) other = .checked again at checked
    by_cases same : other = session
    · rw [same, Function.update_self] at checked
      cases checked
    · exact fenced.update_checked same checked
  · exact fenced.quiet rfl fenced.checked

theorem Fenced.check {world : World} (fenced : Fenced world) (session : Session) :
    Guarded world (world.check session) none := by
  unfold World.check
  split
  · next order begun =>
    split
    · next current =>
      refine fenced.quiet rfl fun other again checked => ?_
      change Function.update world.phase session (.checked order) other = .checked again at checked
      by_cases same : other = session
      · rw [same, Function.update_self] at checked
        cases checked
        exact ⟨same ▸ List.mem_cons_self, current.symm⟩
      · obtain ⟨shares, epoch⟩ := fenced.update_checked same checked
        exact ⟨List.mem_cons_of_mem _ shares, epoch⟩
    · exact fenced.ended session
  · exact fenced.quiet rfl fenced.checked

theorem Fenced.finish {world : World} (fenced : Fenced world) (session : Session) :
    Guarded world (world.finish session).1 (world.finish session).2 := by
  unfold World.finish
  split
  · next order phase =>
    have current := (fenced.checked session order phase).2
    split
    · next result base ran =>
      obtain ⟨enacted, epoch⟩ := onTables_ok.mp ran
      have balanced : Balanced base.toBooks :=
        fenced.balanced.change (enact_changes _ _ _ _ _ _ _ _ _ _ enacted)
      -- the reservation it may have made carries the epoch it was checked under
      have epochs : epochsOf base.toBooks = epochsOf world.base.toBooks ∨
          epochsOf base.toBooks = epochsOf world.base.toBooks ++ [world.base.epoch] := by
        rcases enact_spec enacted with taken | ⟨_, placement, _, underEpoch, _, _, wrote⟩
        · exact Or.inl (epochsOf_turn taken)
        · rw [wrote, epochsOf_place, underEpoch, current]
          exact Or.inr rfl
      refine ⟨⟨balanced, ?_, ?_, ?_⟩, le_of_eq epoch.symm,
        fun _ led => Event.noConfusion (Option.some.inj led), ?_⟩
      · intro other again phase
        show _ ∧ _ = base.epoch
        rw [epoch]
        exact fenced.ended_checked phase
      · show (epochsOf base.toBooks).Pairwise _
        rcases epochs with same | grown
        · rw [same]
          exact fenced.sorted
        · rw [grown]
          refine List.pairwise_append.mpr ⟨fenced.sorted, List.pairwise_singleton _ _, ?_⟩
          intro earlier member later last
          rw [List.mem_singleton.mp last]
          exact fenced.bounded earlier member
      · show ∀ each ∈ epochsOf base.toBooks, each ≤ base.epoch
        rw [epoch]
        rcases epochs with same | grown
        · rw [same]
          exact fenced.bounded
        · intro each member
          rw [grown] at member
          rcases List.mem_append.mp member with old | new
          · exact fenced.bounded each old
          · exact le_of_eq (List.mem_singleton.mp new)
      · intro again same
        cases same
        exact current
    · exact fenced.ended session
  · exact fenced.quiet rfl fenced.checked

theorem Fenced.act (service : Service) {world : World} (fenced : Fenced world) (act : Act) :
    Guarded world (world.act service act).1 (world.act service act).2 := by
  cases act with
  | request asked => exact fenced.request service asked
  | tryLock session =>
      show Guarded world (if world.holder.isNone then _ else _) none
      split
      · exact fenced.quiet rfl fenced.checked
      · exact fenced.quiet rfl fenced.checked
  | advance session => exact fenced.advance service session
  | disconnect => exact fenced.quiet rfl fenced.checked
  | begin session order => exact fenced.begin session order
  | check session => exact fenced.check session
  | finish session => exact fenced.finish session
  | abort session => exact fenced.ended session

theorem Fenced.initial : Fenced World.initial where
  balanced := Balanced.initial
  checked _ _ phase := nomatch phase
  sorted := List.Pairwise.nil
  bounded _ member := absurd member List.not_mem_nil

/-! ### Whole interleavings -/

theorem Fenced.run (service : Service) (acts : List Act) {world : World} (fenced : Fenced world) :
    Fenced (World.run service acts world).1 ∧
      world.base.epoch ≤ (World.run service acts world).1.base.epoch := by
  induction acts generalizing world with
  | nil => exact ⟨fenced, le_refl _⟩
  | cons act rest inductionHypothesis =>
      have step := fenced.act service act
      obtain ⟨kept, grows⟩ := inductionHypothesis step.fenced
      exact ⟨kept, le_trans step.grows grows⟩

/-- No later commit of a scheduler runs under an epoch below the one that is current now. -/
theorem Fenced.committed_later (service : Service) (acts : List Act) {world : World}
    (fenced : Fenced world) {order : Order}
    (seen : .committed order ∈ (World.run service acts world).2) :
    world.base.epoch ≤ order.epoch := by
  induction acts generalizing world with
  | nil => exact absurd seen List.not_mem_nil
  | cons act rest inductionHypothesis =>
      have step := fenced.act service act
      rcases List.mem_append.mp seen with now | later
      · exact le_of_eq (step.committed order (Option.mem_toList.mp now)).symm
      · exact le_trans step.grows (inductionHypothesis step.fenced later)

/-- An earlier acquisition bounds the epochs of later commits. -/
def Ordered (earlier later : Event) : Prop :=
  ∀ epoch order, earlier = .led epoch → later = .committed order → epoch ≤ order.epoch

theorem pairwise_toList (event : Option Event) : event.toList.Pairwise Ordered := by
  cases event with
  | none => exact List.Pairwise.nil
  | some event => exact List.pairwise_singleton _ event

theorem Fenced.ordered (service : Service) (acts : List Act) {world : World}
    (fenced : Fenced world) : (World.run service acts world).2.Pairwise Ordered := by
  induction acts generalizing world with
  | nil => exact List.Pairwise.nil
  | cons act rest inductionHypothesis =>
      have step := fenced.act service act
      refine List.pairwise_append.mpr ⟨?_, inductionHypothesis step.fenced, ?_⟩
      · exact pairwise_toList _
      · intro earlier now later then_ epoch order led committed
        rw [(step.led epoch (led ▸ Option.mem_toList.mp now)).1]
        exact step.fenced.committed_later service rest (committed ▸ then_)

/-- An order that nothing interrupts between its check and its commit is the service's
`applyDecision`. -/
theorem check_finish (service : Service) {world : World} {session : Session} {order : Order}
    (begun : world.phase session = .begun order) :
    ((world.check session).finish session).1.base =
      (Call.applyDecision order.epoch order.tick order.decision order.attempt order.reservation
        order.now order.appliedAt).perform service world.base := by
  have body : ∀ base, Service.applyDecision order.epoch order.tick order.decision order.attempt
      order.reservation order.now order.appliedAt base =
        if base.epoch = order.epoch then onTables (Service.enact order.epoch order.tick
          order.decision order.attempt order.reservation order.now order.appliedAt) base
        else .error (.fenced order.epoch base.epoch) := by
    intro base
    show (require (base.epoch = order.epoch) (.fenced order.epoch base.epoch) >>= fun _ => onTables _)
      base = _
    unfold require
    split <;> rfl
  unfold World.check Call.perform commit
  simp only [begun, Call.body, body]
  split
  · unfold World.finish
    simp only [Function.update_self]
    cases onTables (Service.enact order.epoch order.tick order.decision order.attempt
      order.reservation order.now order.appliedAt) world.base <;> rfl
  · unfold World.finish World.ended
    simp only [Function.update_self]

/-- Any number of schedulers, in any interleaving with each other and with every other transaction:
once an epoch has been acquired, no transaction of a leader of an earlier one commits a decision,
and the epochs of the reservations do not decrease in the order they were made. -/
theorem leader_fencing (service : Service) (acts : List Act) :
    (World.run service acts .initial).2.Pairwise Ordered ∧
      (epochsOf (World.run service acts .initial).1.base.toBooks).Pairwise (· ≤ ·) :=
  ⟨Fenced.initial.ordered service acts, (Fenced.initial.run service acts).1.sorted⟩

end GpuBroker.ControlPlane
