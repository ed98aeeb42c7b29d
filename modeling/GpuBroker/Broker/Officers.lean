/-
This file is who may do what to the pool: the officer check, and the calls of
`Broker` that members and officers make.

The check lets the broker itself pass, and anybody while the pool has no officer
at all. So what a member may do rests on there being an officer, which rests in
turn on what members may do: no call of a member makes or unmakes an officer, so
neither the check nor who passes it ever changes along a sequence of such calls.

The hosts of the lab are told apart from the machines of the cloud here: a host
may be drained, which the broker writes down and tells its local backend.
-/
import GpuBroker.Broker.Runs

namespace GpuBroker.Broker

open Library

variable {γ α β : Type}

/-! ### The officer check -/

/-- Does the pool have any officer at all? -/
def hasAdmins : Op γ Bool := query fun db => db.users.rows.any User.isAdmin

/-- The privilege check for everything that acts on the pool itself. -/
def requireOfficer (actor : Option UserId) (what : String) (admin : Bool) : Op γ Unit :=
  match truthy actor with
  | none => pure ()
  | some actor =>
      if admin then pure ()
      else do
        if ← hasAdmins then do
          let refusal := s!"{what} is for club officers, and {actor} is not one. Ask an officer"
          match ← maybeUser actor with
          | some acting => if acting.isAdmin then pure () else .fail (.unauthorized refusal)
          | none => .fail (.unauthorized refusal)
        else pure ()

/-! ### The pool -/

/-- A host taken out of service. -/
structure HostDrain where
  hostname : String
  reason : String
  drainedAt : Time
  drainedBy : String
  deriving DecidableEq

/-- The hosts of the lab, and those a process was told to place nothing on. -/
structure LocalPool where
  hosts : List String
  manualDrain : List (String × String)
  deriving DecidableEq

/-- What a broker process works on, with the hosts of the lab: the table of those that are drained,
and the local backend when one is configured. -/
structure Club (γ : Type) where
  world : World γ
  hostDrains : List HostDrain
  localPool : Option LocalPool

namespace Club

/-- A transaction on the tables of the club. -/
inductive Entry where
  | store (write : Write)
  | drainHost (drain : HostDrain)
  | undrainHost (hostname : String)

/-- What a call may raise. -/
inductive Error where
  | store (error : BrokerError)
  | unknownHost (hostname : String)
  | unconfigured
  deriving DecidableEq

/-- A call of `Broker`, as a program. -/
abbrev Op (γ : Type) := Program (Club γ) Entry Error

/-- The part of the club that the store and the backends are. -/
def store : Program.Lens (Club γ) (World γ) where
  view := Club.world
  put world club := { club with world }
  view_put := fun _ _ => rfl

/-- A program of the store, as a part of a call. -/
def onStore (program : Broker.Op γ α) : Op γ α := program.lift store .store .store

/-- Tell the local backend to place nothing on a host. -/
def drainLocally (hostname reason : String) : Op γ Unit := do
  match ← Program.read Club.localPool with
  | none => .fail .unconfigured
  | some pool =>
      if pool.hosts.contains hostname then
        Program.quietly fun club => ((), { club with
          localPool := club.localPool.map fun pool =>
            { pool with
              manualDrain := (hostname, reason) ::
                pool.manualDrain.filter fun drain => drain.1 ≠ hostname } })
      else .fail (.unknownHost hostname)

/-- Tell the local backend that it may use a host again. -/
def undrainLocally (hostname : String) : Op γ Unit := do
  match ← Program.read Club.localPool with
  | none => .fail .unconfigured
  | some _ =>
      Program.quietly fun club => ((), { club with
        localPool := club.localPool.map fun pool =>
          { pool with manualDrain := pool.manualDrain.filter fun drain => drain.1 ≠ hostname } })

/-- The drained hosts with one more, or with what is known of one rewritten. -/
def withDrain (drains : List HostDrain) (drain : HostDrain) : List HostDrain :=
  if drains.any fun other => other.hostname = drain.hostname then
    drains.map fun other => if other.hostname = drain.hostname then drain else other
  else drains ++ [drain]

/-! ### The calls -/

/-- Stop placing jobs on a host of the lab. -/
def drainHost (hostname reason actor : String) (admin : Bool) : Op γ Unit := do
  onStore (requireOfficer (some actor) "draining a host" admin)
  drainLocally hostname reason
  let now ← onStore now
  let drain : HostDrain := { hostname, reason, drainedAt := now, drainedBy := actor }
  Program.commit (.drainHost drain) fun club =>
    .ok { club with hostDrains := withDrain club.hostDrains drain }

/-- Let a host take jobs again. -/
def undrainHost (hostname actor : String) (admin : Bool) : Op γ Unit := do
  onStore (requireOfficer (some actor) "undraining a host" admin)
  undrainLocally hostname
  Program.commit (.undrainHost hostname) fun club =>
    .ok { club with hostDrains := club.hostDrains.filter fun drain => drain.hostname ≠ hostname }

/-- Create a member, or change one. Only who is an officer is for officers to change. -/
def addUser (userId : UserId) (actor : Option UserId) (admin : Bool) (displayName : Option String)
    (budgetUsd budgetGpuHours : Option Decimal) (isAdmin : Option Bool) : Op γ User :=
  onStore do
    if isAdmin.isSome then requireOfficer actor "changing who is an officer" admin else pure ()
    upsertUser userId displayName budgetUsd budgetGpuHours isAdmin

/-- Take somebody off the pool. -/
def suspendUser (userId : UserId) (reason : String) (actor : Option UserId) (admin : Bool) :
    Op γ User :=
  onStore do
    requireOfficer actor "suspending a member" admin
    Broker.suspendUser userId reason (actor.getD "")

/-- Put a suspended member back. -/
def restoreUser (userId : UserId) (actor : Option UserId) (admin : Bool) : Op γ User :=
  onStore do
    requireOfficer actor "restoring a member" admin
    Broker.restoreUser userId

end Club

/-- What somebody may call the broker for. -/
inductive Errand where
  | submit (request : Submission)
  | cancel (pre : String)
  | addUser (userId : UserId) (displayName : Option String)
      (budgetUsd budgetGpuHours : Option Decimal) (isAdmin : Option Bool)
  | suspendUser (userId : UserId) (reason : String)
  | restoreUser (userId : UserId)
  | drainHost (hostname reason : String)
  | undrainHost (hostname : String)

/-- The program of an errand, run for an actor; a submission is the actor's own. -/
def Errand.program (site : Site γ) (text : Refusal → String) (actor : UserId) :
    Errand → Club.Op γ Unit
  | submit request => Club.onStore do
      let _ ← Broker.submit { request with userId := actor } text
  | cancel pre => Club.onStore do let _ ← Broker.cancel site pre (some actor) false
  | addUser userId displayName budgetUsd budgetGpuHours isAdmin => do
      let _ ← Club.addUser userId (some actor) false displayName budgetUsd budgetGpuHours isAdmin
  | suspendUser userId reason => do let _ ← Club.suspendUser userId reason (some actor) false
  | restoreUser userId => do let _ ← Club.restoreUser userId (some actor) false
  | drainHost hostname reason => Club.drainHost hostname reason actor false
  | undrainHost hostname => Club.undrainHost hostname actor false

/-- A call: who makes it, what for, and after how many accesses it is stopped at the latest. -/
structure Made where
  actor : UserId
  errand : Errand
  length : Nat

/-- What a sequence of calls leaves. -/
def Desk.afterCalls (desk : Desk γ) (calls : List Made) (club : Club γ) : Club γ :=
  Program.sequence (calls.map fun call =>
    (call.errand.program desk.site desk.text call.actor, call.length)) club

/-! ### What members leave alone -/

/-- Somebody is an officer. -/
def Officer (world : World γ) (id : UserId) : Prop :=
  ∃ user, world.db.users.find id = some user ∧ user.isAdmin = true

instance (world : World γ) (id : UserId) : Decidable (Officer world id) :=
  inferInstanceAs (Decidable (∃ user ∈ world.db.users.find id, user.isAdmin = true))

/-- A member as the checks see them: who is an officer, and who is suspended, since when and why. -/
def User.standing (user : User) : Bool × Option Time × String × String :=
  (user.isAdmin, user.suspendedAt, user.suspendedReason, user.suspendedBy)

/-- What calls of some members leave alone: the standing of everybody, and the state of every job that
is not theirs. Whoever is new is no officer and not suspended, and a job that is new is theirs. -/
structure Spares (members : UserId → Prop) (before after : World γ) : Prop where
  users : ∀ id user, before.db.users.find id = some user →
    ∃ later, after.db.users.find id = some later ∧ later.standing = user.standing
  joined : ∀ id later, before.db.users.find id = none → after.db.users.find id = some later →
    later.isAdmin = false ∧ later.suspendedAt = none
  jobs : ∀ id job, before.db.jobs.find id = some job →
    ∃ later, after.db.jobs.find id = some later ∧ later.userId = job.userId ∧
      (¬ members job.userId → later.state = job.state)
  submitted : ∀ id later, before.db.jobs.find id = none → after.db.jobs.find id = some later →
    members later.userId

variable {members : UserId → Prop} {world next : World γ}

theorem Spares.refl (members : UserId → Prop) (world : World γ) : Spares members world world where
  users := fun _ user found => ⟨user, found, rfl⟩
  joined := fun _ _ missing found => by
    rw [missing] at found
    cases found
  jobs := fun _ job found => ⟨job, found, rfl, fun _ => rfl⟩
  submitted := fun _ _ missing found => by
    rw [missing] at found
    cases found

theorem Spares.same (users : next.db.users = world.db.users) (jobs : next.db.jobs = world.db.jobs) :
    Spares members world next where
  users := fun _ user found => ⟨user, by rw [users]; exact found, rfl⟩
  joined := fun _ _ missing found => by
    rw [users, missing] at found
    cases found
  jobs := fun _ job found => ⟨job, by rw [jobs]; exact found, rfl, fun _ => rfl⟩
  submitted := fun _ _ missing found => by
    rw [jobs, missing] at found
    cases found

theorem Spares.trans {one two three : World γ} (first : Spares members one two)
    (second : Spares members two three) : Spares members one three where
  users := by
    intro id user found
    obtain ⟨middle, here, same⟩ := first.users id user found
    obtain ⟨later, there, still⟩ := second.users id middle here
    exact ⟨later, there, still.trans same⟩
  joined := by
    intro id later missing found
    cases middle : two.db.users.find id with
    | none => exact second.joined id later middle found
    | some user =>
        obtain ⟨plain, free⟩ := first.joined id user missing middle
        obtain ⟨other, there, still⟩ := second.users id user middle
        rw [found] at there
        cases there
        unfold User.standing at still
        simp only [Prod.mk.injEq] at still
        exact ⟨still.1.trans plain, still.2.1.trans free⟩
  jobs := by
    intro id job found
    obtain ⟨middle, here, mine, same⟩ := first.jobs id job found
    obtain ⟨later, there, his, still⟩ := second.jobs id middle here
    refine ⟨later, there, his.trans mine, fun other => ?_⟩
    rw [still (mine ▸ other), same other]
  submitted := by
    intro id later missing found
    cases middle : two.db.jobs.find id with
    | none => exact second.submitted id later middle found
    | some job =>
        have mine := first.submitted id job missing middle
        obtain ⟨other, there, his, _⟩ := second.jobs id job middle
        rw [found] at there
        cases there
        exact his ▸ mine

theorem Spares.mono {more : UserId → Prop} (spares : Spares members world next)
    (among : ∀ user, members user → more user) : Spares more world next where
  users := spares.users
  joined := spares.joined
  jobs := by
    intro id job found
    obtain ⟨later, there, mine, same⟩ := spares.jobs id job found
    exact ⟨later, there, mine, fun other => same (mt (among _) other)⟩
  submitted := fun id later missing found => among _ (spares.submitted id later missing found)

theorem Spares.officer (spares : Spares members world next) (id : UserId) :
    Officer next id ↔ Officer world id := by
  constructor
  · rintro ⟨later, found, admin⟩
    cases before : world.db.users.find id with
    | none =>
        rw [(spares.joined id later before found).1] at admin
        cases admin
    | some user =>
        obtain ⟨other, there, same⟩ := spares.users id user before
        rw [found] at there
        cases there
        exact ⟨user, before, (congrArg Prod.fst same).symm.trans admin⟩
  · rintro ⟨user, found, admin⟩
    obtain ⟨later, there, same⟩ := spares.users id user found
    exact ⟨later, there, (congrArg Prod.fst same).trans admin⟩

/-- There is an officer, and the actor is none. -/
structure Guarded (actor : UserId) (world : World γ) : Prop where
  officer : ∃ id, Officer world id
  member : ¬ Officer world actor

theorem Guarded.spared {actor : UserId} (guarded : Guarded actor world)
    (spares : Spares members world next) : Guarded actor next := by
  obtain ⟨id, officer⟩ := guarded.officer
  exact ⟨⟨id, (spares.officer id).mpr officer⟩, mt (spares.officer actor).mp guarded.member⟩

/-! ### Rules for the calls of a member -/

/-- Run for a member while there is an officer, each access of a program leaves alone what is not the
member's. -/
abbrev Harmless (actor : UserId) (program : Op γ α) (post : α → World γ → Prop) (world : World γ) :
    Prop :=
  program.Safe (Contract.alone (Spares (· = actor)) (Guarded actor)) post world

section Rules

variable {actor : UserId} {post : β → World γ → Prop}

theorem harmless_quiet {view : World γ → α × World γ} {rest : α → Op γ β}
    (still : (view world).2.db = world.db) (resume : Harmless actor (rest (view world).1) post (view world).2) :
    Harmless actor (Program.quietly view >>= rest) post world := by
  rintro current rfl guarded _
  have spares : Spares (· = actor) current (view current).2 :=
    Spares.same (by rw [still]) (by rw [still])
  exact ⟨guarded.spared spares, spares, resume⟩

theorem harmless_now {rest : Time → Op γ β}
    (resume : Harmless actor (rest (world.clock world.asked)) post world.ticked) :
    Harmless actor (now >>= rest) post world :=
  harmless_quiet rfl resume

theorem harmless_query {view : Db → α} {rest : α → Op γ β}
    (resume : Harmless actor (rest (view world.db)) post world) :
    Harmless actor (query view >>= rest) post world :=
  harmless_quiet rfl resume

theorem harmless_settings {rest : BrokerConfig → Op γ β}
    (resume : Harmless actor (rest world.config) post world) :
    Harmless actor (settings >>= rest) post world :=
  harmless_quiet rfl resume

theorem harmless_pure {value : β} (holds : post value world) :
    Harmless actor (pure value) post world := by
  rintro current rfl _
  exact holds

theorem harmless_fail {error : BrokerError} : Harmless actor (.fail error : Op γ β) post world :=
  fun _ _ _ => trivial

theorem harmless_executing {write : Write} {value : β}
    (spares : ∀ next, write.apply world = .ok next → Spares (· = actor) world next)
    (holds : ∀ next, post value next) : Harmless actor (executing write value) post world := by
  refine Program.Safe.commit ?_ ?_
  · rintro current next rfl guarded _ applied
    have spared := spares next applied
    refine ⟨guarded.spared spared, spared, ?_⟩
    rintro final rfl _
    exact holds final
  · rintro current error rfl _ _ _
    exact ⟨Spares.refl _ current, trivial⟩

/-- The officer check lets no member pass while there is an officer. -/
theorem harmless_requireOfficer {what : String} (named : actor ≠ "") :
    Harmless actor (requireOfficer (some actor) what false) (fun _ _ => False) world := by
  refine Program.Safe.settled fun current same guarded => ?_
  cases same
  unfold requireOfficer
  rw [truthy_some named]
  simp only [Bool.false_eq_true, if_false]
  unfold hasAdmins
  refine harmless_query ?_
  have officers : world.db.users.rows.any User.isAdmin = true := by
    obtain ⟨id, user, found, admin⟩ := guarded.officer
    exact List.any_eq_true.mpr ⟨user, Table.find_mem found, admin⟩
  rw [officers, if_pos rfl]
  refine harmless_query ?_
  split
  · next acting found =>
    have plain : ¬ acting.isAdmin = true := fun admin => guarded.member ⟨acting, found, admin⟩
    rw [if_neg plain]
    exact harmless_fail
  · exact harmless_fail

/-! ### What members may do -/

/-- An update of a member's row rewrites that row, and no job. -/
theorem find_updateUser {user : User} (applied : (Write.updateUser user).apply world = .ok next) :
    next.db.jobs = world.db.jobs ∧ ∀ id, next.db.users.find id =
      if id = user.userId then (world.db.users.find id).map fun row =>
        { row with
          displayName := user.displayName
          budgetUsd := user.budgetUsd
          budgetGpuHours := user.budgetGpuHours
          isAdmin := user.isAdmin }
      else world.db.users.find id := by
  obtain ⟨db, written, rfl⟩ := Write.apply_eq applied
  cases written
  refine ⟨rfl, fun id => ?_⟩
  exact Table.find_modify world.db.users user.userId (fun row =>
    { row with
      displayName := user.displayName
      budgetUsd := user.budgetUsd
      budgetGpuHours := user.budgetGpuHours
      isAdmin := user.isAdmin }) (fun _ => rfl) id

/-- Without a word on who is an officer, a member is created as none and changed as it was. -/
theorem harmless_upsertUser {userId : UserId} {displayName : Option String}
    {budgetUsd budgetGpuHours : Option Decimal} :
    Harmless actor (upsertUser userId displayName budgetUsd budgetGpuHours none) (fun _ _ => True)
      world := by
  refine harmless_settings (harmless_query (harmless_now ?_))
  split
  · next missing =>
    refine harmless_executing (fun next applied => ?_) fun _ => trivial
    obtain ⟨db, written, rfl⟩ := Write.apply_eq applied
    simp only [Write.onDb] at written
    split at written
    · cases written
    · next users grown =>
      cases written
      refine ⟨fun id user found => ⟨user, ?_, rfl⟩, fun id later absent found => ?_,
        (Spares.refl (· = actor) world.ticked).jobs, (Spares.refl (· = actor) world.ticked).submitted⟩
      · show users.find id = some user
        rw [Table.find_insert grown, if_neg, found]
        rintro rfl
        cases missing.symm.trans found
      · have hit : users.find id = some later := found
        rw [Table.find_insert grown] at hit
        split at hit
        · cases hit
          exact ⟨rfl, rfl⟩
        · cases absent.symm.trans hit
  · next existing hit =>
    refine harmless_executing (fun next applied => ?_) fun _ => trivial
    obtain ⟨jobs, rows⟩ := find_updateUser applied
    have same := Table.find_key hit
    have jobless : Spares (· = actor) world { next with db := { next.db with users := world.db.users } } :=
      Spares.same rfl jobs
    refine ⟨fun id user found => ?_, fun id later absent found => ?_, jobless.jobs, jobless.submitted⟩
    · rw [rows, show world.ticked.db.users.find id = some user from found]
      split
      · next mine =>
        have row : user = existing := by
          rw [mine] at found
          exact Option.some.inj (found.symm.trans (same ▸ hit))
        subst row
        exact ⟨_, rfl, rfl⟩
      · exact ⟨user, rfl, rfl⟩
    · rw [rows, show world.ticked.db.users.find id = none from absent] at found
      split at found <;> cases found

/-- A new job is its own member's. -/
theorem harmless_insertJob {write : Write} {job : Job} {reason : Reason} {hold : List LedgerEntry}
    {value : β} (mine : job.userId = actor)
    (inserts : write.onDb world.config world.db = world.db.insertJob job reason hold)
    (holds : ∀ next, post value next) : Harmless actor (executing write value) post world := by
  refine harmless_executing (fun next applied => ?_) holds
  obtain ⟨db, written, rfl⟩ := Write.apply_eq applied
  obtain ⟨jobs, grown, rfl⟩ := Db.insertJob_eq (inserts.symm.trans written)
  refine ⟨(Spares.refl (· = actor) world).users, (Spares.refl (· = actor) world).joined,
    fun id row found => ⟨row, ?_, rfl, fun _ => rfl⟩, fun id later absent found => ?_⟩
  · show jobs.find id = some row
    rw [Table.find_insert grown, if_neg, found]
    rintro rfl
    exact absurd ((Table.insert_eq_some grown).1.symm.trans found) nofun
  · have hit : jobs.find id = some later := found
    rw [Table.find_insert grown] at hit
    split at hit
    · cases hit
      exact mine
    · exact absurd (absent.symm.trans hit) nofun

theorem harmless_getUser {user : UserId} :
    Harmless actor (getUser user) (fun found next => found.userId = user ∧ next = world) world := by
  refine harmless_query ?_
  split
  · next found hit => exact harmless_pure ⟨Table.find_key hit, rfl⟩
  · exact harmless_fail

theorem harmless_refusalOf {config : BrokerConfig} {user : User} {currency : Currency}
    {reserved : Decimal} :
    Harmless actor (refusalOf config user currency reserved) (fun _ _ => True) world := by
  have answered : ∀ {current : World γ} {verdict : Except Refusal Admission},
      Harmless actor (pure verdict) (fun _ _ => True) current := harmless_pure trivial
  unfold refusalOf
  split
  · exact answered
  · split
    · exact answered
    · refine harmless_query ?_
      split
      · exact answered
      · refine Program.Safe.bind (?_ : Harmless actor (balance user.userId currency)
          (fun _ _ => True) world) fun balance _ _ _ => ?_
        · refine harmless_settings (harmless_now (Program.Safe.bind harmless_getUser
            fun found next _ _ => harmless_query (harmless_pure trivial)))
        · split <;> exact answered

theorem harmless_orRaise {value : Except BrokerError α} {rest : α → Op γ β}
    (resume : ∀ found, Harmless actor (rest found) post world) :
    Harmless actor (orRaise value >>= rest) post world := by
  cases value with
  | error error => exact harmless_fail
  | ok found => exact resume found

/-- A submission of a member adds a job of theirs. -/
theorem harmless_submit {request : Submission} {text : Refusal → String} (mine : request.userId = actor) :
    Harmless actor (submit request text) (fun _ _ => True) world := by
  refine harmless_settings (harmless_orRaise fun gpu => ?_)
  refine Program.Safe.bind harmless_getUser fun user current _ _ => ?_
  refine Program.Safe.bind harmless_refusalOf fun verdict judged _ _ => ?_
  split
  · next refusal =>
    refine Program.Safe.bind (?_ : Harmless actor (recordRefusal _ refusal (text refusal))
      (fun _ _ => True) judged) fun _ _ _ _ => harmless_pure trivial
    exact harmless_now (harmless_insertJob mine rfl fun _ => trivial)
  · next read =>
    refine Program.Safe.bind (?_ : Harmless actor (createJob _ read) (fun _ _ => True) judged)
      fun _ _ _ _ => harmless_pure trivial
    exact Program.Safe.bind harmless_getUser fun _ _ _ _ =>
      harmless_now (harmless_insertJob mine rfl fun _ => trivial)

/-- The ownership check lets a member who is no officer pass for their own jobs only. -/
theorem harmless_authorize {job : Job} :
    Harmless actor (authorize job (some actor) false)
      (fun _ next => job.userId = actor ∧ next = world) world := by
  refine Program.Safe.settled fun current same guarded => ?_
  cases same
  unfold authorize
  simp only [Bool.or_false]
  split
  · next own => exact harmless_pure ⟨(of_decide_eq_true own).symm, rfl⟩
  · refine harmless_query ?_
    split
    · next acting found =>
      have plain : ¬ acting.isAdmin = true := fun admin => guarded.member ⟨acting, found, admin⟩
      rw [if_neg plain]
      exact harmless_fail
    · exact harmless_fail

theorem harmless_findJob {pre : String} :
    Harmless actor (findJob pre)
      (fun job next => world.db.jobs.find job.jobId = some job ∧ next = world) world := by
  refine harmless_query ?_
  split
  · exact harmless_fail
  · next job only =>
    have member := (List.mem_filter.mp
      ((List.mergeSort_perm _ _).mem_iff.mp (only ▸ List.mem_singleton_self job))).1
    exact harmless_pure ⟨Table.find_of_mem member, rfl⟩
  · exact harmless_fail

theorem harmless_terminateHeld {site : Site γ} {job : Job} {why : String} :
    Harmless actor (terminateHeld site job why) (fun _ next => next.db = world.db) world := by
  unfold terminateHeld
  split
  · split
    · next backend _ =>
      unfold externally
      refine harmless_quiet rfl ?_
      split
      · exact harmless_pure rfl
      · exact harmless_fail
    · exact harmless_pure rfl
  · exact harmless_pure rfl

/-- A move rewrites the row of its job, and no member's. -/
theorem find_moved {current row : Job} {target : JobState} {change : Change} {now : Time}
    {outstanding : Option Cents} (found : world.db.jobs.find current.jobId = some row)
    (applied : (Write.move current target change now outstanding).apply world.ticked = .ok next) :
    next.db.users = world.db.users ∧ ∀ id, next.db.jobs.find id =
      if id = current.jobId then some ((current.movedTo target change now).writtenOver row)
      else world.db.jobs.find id := by
  obtain ⟨db, written, rfl⟩ := Write.apply_eq applied
  obtain ⟨_, _, _, rfl⟩ := Db.moveJob_eq written
  exact ⟨rfl, Table.find_modify_found found (current.movedTo target change now).writtenOver
    (Job.writtenOver_id _)⟩

/-- A move of a member's own job. -/
theorem harmless_transition {job row : Job} {target : JobState} {change : Change}
    (found : world.db.jobs.find job.jobId = some row) (mine : row.userId = actor) :
    Harmless actor (transition job target change) (fun _ _ => True) world := by
  have moves : ∀ outstanding, Harmless actor
      (executing (.move job target change (world.clock world.asked) outstanding)
        (job.movedTo target change (world.clock world.asked))) (fun _ _ => True) world.ticked := by
    intro outstanding
    refine harmless_executing (fun next applied => ?_) fun _ => trivial
    obtain ⟨users, rows⟩ := find_moved found applied
    have jobless : Spares (· = actor) world
        { next with db := { next.db with jobs := world.db.jobs } } := Spares.same users rfl
    refine ⟨jobless.users, jobless.joined, fun id before hit => ?_, fun id later absent hit => ?_⟩
    · rw [rows]
      split
      · next same =>
        rw [same] at hit
        cases Option.some.inj (hit.symm.trans found)
        exact ⟨_, rfl, rfl, fun other => absurd mine other⟩
      · exact ⟨before, hit, rfl, fun _ => rfl⟩
    · rw [rows] at hit
      split at hit
      · next same =>
        rw [same] at absent
        cases absent.symm.trans found
      · cases absent.symm.trans hit
  unfold transition
  split
  · refine harmless_now ?_
    split
    · exact harmless_query (moves _)
    · exact moves none
  · exact harmless_fail

/-- A member cancels none but their own job. -/
theorem harmless_cancel {site : Site γ} {pre : String} :
    Harmless actor (cancel site pre (some actor) false) (fun _ _ => True) world := by
  refine Program.Safe.bind harmless_findJob fun job listed _ hit => ?_
  obtain ⟨found, rfl⟩ := hit
  refine Program.Safe.bind harmless_authorize fun _ allowed _ own => ?_
  obtain ⟨mine, rfl⟩ := own
  split
  · exact harmless_fail
  · refine Program.Safe.bind harmless_terminateHeld fun _ stopped _ same => ?_
    exact harmless_transition (by rw [same]; exact found) mine

end Rules

/-! ### Calls of members -/

/-- What calls of some members leave alone of the club: what the world holds of others, and the hosts. -/
structure Club.Spares (members : UserId → Prop) (before after : Club γ) : Prop where
  world : Broker.Spares members before.world after.world
  hostDrains : after.hostDrains = before.hostDrains
  localPool : after.localPool = before.localPool

theorem Club.Spares.refl (members : UserId → Prop) (club : Club γ) : Club.Spares members club club :=
  ⟨Broker.Spares.refl members club.world, rfl, rfl⟩

theorem Club.Spares.trans {one two three : Club γ} (first : Club.Spares members one two)
    (second : Club.Spares members two three) : Club.Spares members one three :=
  ⟨first.world.trans second.world, second.hostDrains.trans first.hostDrains,
    second.localPool.trans first.localPool⟩

theorem Club.Spares.mono {some all : UserId → Prop} {one two : Club γ} (fewer : ∀ user, some user → all user)
    (spares : Club.Spares some one two) : Club.Spares all one two :=
  ⟨spares.world.mono fewer, spares.hostDrains, spares.localPool⟩

/-- What a member's call follows: it spares the club, as long as there is an officer. -/
abbrev sparing (actor : UserId) : Contract (Club γ) Club.Entry Club.Error :=
  .alone (Club.Spares (· = actor)) fun club => Guarded actor club.world

section Members

variable {actor : UserId} {club : Club γ}

/-- What a program of the store leaves alone, it leaves alone as a part of a call. -/
theorem safe_onStore {program : Op γ α} {post : α → Prop}
    (harmless : Harmless actor program (fun result _ => post result) club.world) :
    (Club.onStore program).Safe (sparing actor) (fun result _ => post result) club := by
  have part : program.Safe (.alone (Spares (· = actor)) (Guarded actor)) (fun result _ => post result)
    (Club.store.view club) := harmless
  refine Program.Safe.lift (fun _ guarded => guarded) (fun _ _ _ guarded => guarded) ?_ part
  intro before after spares
  exact ⟨spares, rfl, rfl⟩

/-- Past the officer check, no member's call does anything. -/
theorem safe_refused {what : String} {rest : Club.Op γ α} (named : actor ≠ "") :
    (Club.onStore (requireOfficer (some actor) what false) >>= fun _ => rest).Safe (sparing actor)
      (fun _ _ => True) club := by
  have refused : Harmless actor (requireOfficer (some actor) what false) (fun _ _ => False) club.world :=
    harmless_requireOfficer named
  exact Program.Safe.bind (safe_onStore refused) fun _ _ _ never => never.elim

/-- A member's call, whatever it is for, spares the club. -/
theorem Errand.spares (site : Site γ) (text : Refusal → String) (named : actor ≠ "") (errand : Errand) :
    (errand.program site text actor).Safe (sparing actor) (fun _ _ => True) club := by
  have ignored : ∀ {β : Type} {program : Op γ β}, Harmless actor program (fun _ _ => True) club.world →
      Harmless actor (program >>= fun _ => pure ()) (fun _ _ => True) club.world := by
    intro β program harmless
    exact Program.Safe.bind harmless fun _ _ _ _ => harmless_pure trivial
  have discarded : ∀ {β : Type} {program : Club.Op γ β},
      program.Safe (sparing actor) (fun _ _ => True) club →
      (program >>= fun _ => pure ()).Safe (sparing actor) (fun _ _ => True) club := by
    intro β program safe
    exact Program.Safe.bind safe fun _ _ _ _ _ _ _ => trivial
  have refused : ∀ {β : Type} {what : String} {rest : Op γ β},
      Harmless actor (requireOfficer (some actor) what false >>= fun _ => rest) (fun _ _ => True)
        club.world := by
    intro β what rest
    exact Program.Safe.bind (harmless_requireOfficer named) fun _ _ _ never => never.elim
  cases errand with
  | submit request => exact safe_onStore (ignored (harmless_submit rfl))
  | cancel pre => exact safe_onStore (ignored harmless_cancel)
  | addUser userId displayName budgetUsd budgetGpuHours isAdmin =>
      refine discarded ?_
      unfold Club.addUser
      refine safe_onStore ?_
      cases isAdmin with
      | none => exact harmless_upsertUser
      | some admin => exact refused
  | suspendUser userId reason => exact discarded (safe_onStore refused)
  | restoreUser userId => exact discarded (safe_onStore refused)
  | drainHost hostname reason => exact safe_refused named
  | undrainHost hostname => exact safe_refused named

end Members

/-- One call of a member, stopped anywhere. -/
theorem afterCalls_one (desk : Desk γ) (call : Made) (club : Club γ) (named : call.actor ≠ "")
    (guarded : Guarded call.actor club.world) :
    Club.Spares (· = call.actor) club (desk.afterCalls [call] club) := by
  have safe : (call.errand.program desk.site desk.text call.actor).Safe (sparing call.actor)
      (fun _ _ => True) club := call.errand.spares desk.site desk.text named
  have path := (safe.run guarded
    (Program.allowed_always (fun _ _ => trivial) call.length _ club)).2
  exact Contract.path_alone (Club.Spares.refl _) Club.Spares.trans path

theorem afterCalls_append (desk : Desk γ) (one two : List Made) (club : Club γ) :
    desk.afterCalls (one ++ two) club = desk.afterCalls two (desk.afterCalls one club) := by
  unfold Desk.afterCalls
  rw [List.map_append, Program.sequence_append]

/-- A sequence of calls by members, each stopped anywhere, leaves the standing of everybody, the drained
hosts and the jobs of everybody else alone, and each of the calls leaves all jobs alone but its own
member's. -/
theorem members_spare_club (desk : Desk γ) (calls : List Made) (club : Club γ)
    (officer : ∃ id, Officer club.world id)
    (members : ∀ call ∈ calls, call.actor ≠ "" ∧ ¬ Officer club.world call.actor) :
    Club.Spares (fun user => ∃ call ∈ calls, call.actor = user) club (desk.afterCalls calls club) ∧
      ∀ before call after, calls = before ++ call :: after →
        Club.Spares (· = call.actor) (desk.afterCalls before club)
          (desk.afterCalls (before ++ [call]) club) := by
  induction calls using List.reverseRecOn with
  | nil => exact ⟨Club.Spares.refl _ club, fun before _ _ split => absurd split (by simp)⟩
  | append_singleton before call inductionHypothesis =>
      obtain ⟨spared, each⟩ := inductionHypothesis fun other member =>
        members other (List.mem_append_left _ member)
      obtain ⟨named, member⟩ := members call (by simp)
      have guarded : Guarded call.actor (desk.afterCalls before club).world :=
        (Guarded.mk officer member).spared spared.world
      have last := afterCalls_one desk call _ named guarded
      rw [← afterCalls_append] at last
      refine ⟨(spared.mono ?_).trans (last.mono ?_), ?_⟩
      · rintro user ⟨other, made, rfl⟩
        exact ⟨other, List.mem_append_left _ made, rfl⟩
      · rintro user rfl
        exact ⟨call, by simp, rfl⟩
      · intro first middle rest split
        rcases List.eq_nil_or_concat rest with rfl | ⟨later, final, rfl⟩
        · obtain ⟨rfl, same⟩ := List.append_inj' split rfl
          cases same
          exact last
        · have shorter : before ++ [call] = (first ++ middle :: later) ++ [final] := by
            rw [split, List.concat_eq_append, List.append_assoc, List.cons_append]
          exact each first middle later (List.append_inj' shorter rfl).1

/-- A club of which Ann is the officer, who has drained a host and asked for a machine. -/
def Club.founded : Club Rack where
  world := Rack.running.after ((.upsertUser "ann" none none none (some true), 40) :: Operation.opening)
    (World.club .club)
  hostDrains := [⟨"gpu-1", "fan", 0, "ann"⟩]
  localPool := some ⟨["gpu-1"], [("gpu-1", "fan")]⟩

/-- Bob tries what is not his to do, and Carl, whom nobody knows, what Bob did. -/
def Made.meddling : List Made :=
  [⟨"bob", .addUser "bob" none none none none, 40⟩,
    ⟨"bob", .addUser "bob" none none none (some true), 40⟩,
    ⟨"bob", .suspendUser "ann" "mine now", 40⟩,
    ⟨"bob", .undrainHost "gpu-1", 40⟩,
    ⟨"bob", .cancel "job", 40⟩,
    ⟨"bob", .submit ⟨"bob-job", "bob", "train", "t4", 4, none, none, "real"⟩, 40⟩,
    ⟨"carl", .cancel "bob-job", 40⟩]

/-- The club is as it was but for Bob, who is no officer, and his job, which Carl has not cancelled. -/
theorem members_spare_club_founded :
    Club.Spares (fun user => ∃ call ∈ Made.meddling, call.actor = user) Club.founded
        (Rack.running.afterCalls Made.meddling Club.founded) ∧
      (Rack.running.afterCalls Made.meddling Club.founded).world.db.jobs.rows.map
        (fun job => (job.jobId, job.state)) = [("job", .queued), ("bob-job", .queued)] :=
  ⟨(members_spare_club Rack.running Made.meddling Club.founded ⟨"ann", by decide +kernel⟩
    (by decide +kernel)).1, by decide +kernel⟩

end GpuBroker.Broker
