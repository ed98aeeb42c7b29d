/-
This file is the quota of a tenant over a leader's whole term: the GPUs its jobs
hold never exceed its maximum.

The maximum is checked only in the decisions of a tick, against what the snapshot
read. Between that reading and the last application everything others do can only
lower the count, so the count and what is still to be applied stay together
within the maximum, whichever of the decisions come to be applied.
-/
import GpuBroker.ControlPlane.Ticks
import GpuBroker.ControlPlane.Deeds
import GpuBroker.ControlPlane.JobCap

namespace GpuBroker.ControlPlane

open Library Library.Transaction

/-! ### The count of a tenant -/

/-- What a reservation counts for a tenant. -/
def countedFor (jobs : Table Job Job.id) (tenant : TenantID) (row : Reservation) : Int :=
  if row.active ∧ (jobs.find row.job).any (fun job => job.tenant = tenant) then row.gpus else 0

theorem tenantActiveGPUs_eq (books : Books) (tenant : TenantID) :
    tenantActiveGPUs books tenant = books.reservations.total (countedFor books.jobs tenant) := rfl

/-- Every job stays, under its tenant. -/
def TenantsStay (jobs next : Table Job Job.id) : Prop :=
  ∀ id job, jobs.find id = some job → ∃ later, next.find id = some later ∧ later.tenant = job.tenant

/-- While jobs stay under their tenants, a stored reservation counts the same. -/
theorem countedFor_same {books : Books} {jobs : Table Job Job.id} (sound : Sound books)
    (stay : TenantsStay books.jobs jobs) (tenant : TenantID) (id : ReservationID)
    (row : Reservation) (found : books.reservations.find id = some row) :
    countedFor jobs tenant row = countedFor books.jobs tenant row := by
  obtain ⟨job, hasJob, _⟩ := (sound.paired id row found).job
  obtain ⟨later, hasLater, same⟩ := stay row.job job hasJob
  unfold countedFor
  rw [hasJob, hasLater]
  simp only [Option.any_some, same]

theorem Move.reservations {books next : Books} (move : Move books next) :
    next.reservations = books.reservations := by
  cases move <;> rfl

theorem Moves.reservations {books next : Books} (moves : Moves books next) :
    next.reservations = books.reservations := by
  induction moves with
  | refl => rfl
  | tail _ move inductionHypothesis => exact move.reservations.trans inductionHypothesis

/-- Nothing but a placement raises the count of a tenant. -/
theorem Turn.tenantActiveGPUs_le {books next : Books} (sound : Sound books)
    (turn : Turn books next) (stay : TenantsStay books.jobs next.jobs) (tenant : TenantID) :
    tenantActiveGPUs next tenant ≤ tenantActiveGPUs books tenant := by
  rw [tenantActiveGPUs_eq, tenantActiveGPUs_eq]
  cases turn with
  | moves moved =>
      rw [moved.reservations]
      exact (Table.total_congr (countedFor_same sound stay tenant)).le
  | close closing =>
      have modified := Table.total_modify closing.reservationFound
        (Reservation.release closing.now closing.outcome.text) (fun _ => rfl)
        (countedFor closing.result.jobs tenant)
      rw [Table.total_congr (countedFor_same sound stay tenant)] at modified
      refine modified.le.trans ?_
      have positive := (sound.paired _ _ closing.reservationFound).positive
      have before : 0 ≤ countedFor closing.result.jobs tenant closing.reservation := by
        unfold countedFor
        split <;> omega
      have after : countedFor closing.result.jobs tenant
          (closing.reservation.release closing.now closing.outcome.text) = 0 := by
        simp [countedFor, Reservation.active, Reservation.release]
      omega

/-- A placement raises the count of its job's tenant by the GPUs of the job. -/
theorem Placement.tenantActiveGPUs {books : Books} (sound : Sound books)
    (placement : Placement books) (tenant : TenantID) :
    tenantActiveGPUs placement.result tenant = ControlPlane.tenantActiveGPUs books tenant +
      if placement.job.tenant = tenant then placement.job.requirements.gpus else 0 := by
  have own : placement.result.jobs.find placement.job.id =
      some (Job.saved placement.job placement.next) := by
    rw [placement.find_job, if_pos rfl]
  have stay : TenantsStay books.jobs placement.result.jobs := by
    intro id job found
    rw [placement.find_job]
    split
    · next same =>
      rw [same, placement.jobFound] at found
      cases found
      exact ⟨_, rfl, rfl⟩
    · exact ⟨job, found, rfl⟩
  rw [tenantActiveGPUs_eq, tenantActiveGPUs_eq]
  show placement.reservations.total _ = _
  rw [Table.total_insert placement.reservationInserted,
    Table.total_congr (countedFor_same sound stay tenant)]
  congr 1
  unfold countedFor
  simp only [Reservation.active, Option.isNone_none, own, Option.any_some, decide_eq_true_eq,
    true_and]
  rfl

/-! ### Rows that stay -/

/-- Every job asks for a GPU. -/
def Asking (books : Books) : Prop :=
  ∀ id job, books.jobs.find id = some job → 0 < job.requirements.gpus

theorem Asking.written {books next : Books} (asking : Asking books) {row moved : Job}
    (stored : books.jobs.find row.id = some row)
    (jobs : ∀ id, next.jobs.find id =
      if id = row.id then some (Job.saved row moved) else books.jobs.find id) : Asking next := by
  intro id job found
  rw [jobs] at found
  split at found
  · cases found
    exact asking row.id row stored
  · exact asking id job found

theorem Asking.move {books next : Books} (asking : Asking books) (move : Move books next) :
    Asking next := by
  cases move with
  | newProject | newWorker | workers | attempt => exact asking
  | newJob inserted submitted first atLeastOne positive registered =>
      intro id job found
      rw [Table.find_insert inserted] at found
      split at found
      · cases found
        exact positive
      · exact asking id job found
  | @job row moved found advance =>
      have key : row.id = moved.id := Table.find_key found
      refine @Asking.written books _ asking row moved (key ▸ found) fun id => ?_
      rw [key]
      exact Table.find_modify_found found (fun row => Job.saved row moved) (fun _ => rfl) id

theorem Asking.change {books next : Books} (asking : Asking books) (change : Change books next) :
    Asking next := by
  cases change with
  | turn taken =>
      cases taken with
      | moves moved =>
          induction moved with
          | refl => exact asking
          | tail _ move inductionHypothesis => exact inductionHypothesis.move move
      | close closing => exact asking.written closing.jobFound closing.find_job
  | place placement => exact asking.written placement.jobFound placement.find_job

/-! ### What a tick gives a tenant -/

section

variable {N : Type}

/-- The GPUs some outcomes place for a tenant. -/
def placedFor (tenant : TenantID) (outcomes : List (OrderedJob N × PolicyDecision N)) : Int :=
  drawn (placing (ofTenant tenant)) gpusOf outcomes

theorem placedFor_cons (tenant : TenantID) (pair : OrderedJob N × PolicyDecision N)
    (outcomes : List (OrderedJob N × PolicyDecision N)) :
    placedFor tenant (pair :: outcomes) =
      (if placing (ofTenant tenant) pair.1 pair.2 then pair.1.job.requirements.gpus else 0) +
        placedFor tenant outcomes :=
  drawn_cons _ _ _ _ _

theorem placedFor_append (tenant : TenantID)
    (one two : List (OrderedJob N × PolicyDecision N)) :
    placedFor tenant (one ++ two) = placedFor tenant one + placedFor tenant two := by
  simp [placedFor, drawn]

/-- Taking a placement out of a snapshot counts it for the tenant of its job. -/
theorem consume_active {snapshot : Snapshot N} {jobs : List Job} {job : Job}
    {decision : PolicyDecision N}
    (found : jobs.find? (fun job => job.id = decision.job) = some job) (tenant : TenantID) :
    (snapshot.consume jobs decision).tenantActiveGPUs tenant =
      snapshot.tenantActiveGPUs tenant + if job.tenant = tenant then job.requirements.gpus else 0 := by
  unfold Snapshot.consume
  simp only [found, Option.map_some, Option.getD_some]
  by_cases own : job.tenant = tenant
  · rw [own, Function.update_self, if_pos rfl]
  · rw [Function.update_of_ne (Ne.symm own), if_neg own, add_zero]

/-- What the placements of a group leave: the same queue and limits, and a count raised by them. -/
theorem consumeAll_spec {snapshot : Snapshot N} {jobs : List Job}
    {outcomes : List (OrderedJob N × PolicyDecision N)}
    (found : ∀ pair ∈ outcomes, jobs.find? (fun job => job.id = pair.2.job) = some pair.1.job) :
    (snapshot.consumeAll jobs outcomes).jobs = snapshot.jobs ∧
      (snapshot.consumeAll jobs outcomes).tenantMaxGPUs = snapshot.tenantMaxGPUs ∧
      ∀ tenant, (snapshot.consumeAll jobs outcomes).tenantActiveGPUs tenant =
        snapshot.tenantActiveGPUs tenant + placedFor tenant outcomes := by
  induction outcomes generalizing snapshot with
  | nil => exact ⟨rfl, rfl, fun tenant => by simp [Snapshot.consumeAll, placedFor, drawn]⟩
  | cons pair rest inductionHypothesis =>
      have own := found pair List.mem_cons_self
      have later := fun other member => found other (List.mem_cons_of_mem pair member)
      by_cases places : pair.2.action = .place
      · have folded : snapshot.consumeAll jobs (pair :: rest) =
            (snapshot.consume jobs pair.2).consumeAll jobs rest := by
          simp [Snapshot.consumeAll, places]
        obtain ⟨queue, limits, counts⟩ :=
          @inductionHypothesis (snapshot.consume jobs pair.2) later
        rw [folded]
        refine ⟨queue, limits, fun tenant => ?_⟩
        rw [counts, consume_active own, placedFor_cons]
        simp only [placing, places, ofTenant, decide_true, Bool.true_and, decide_eq_true_eq]
        omega
      · have folded : snapshot.consumeAll jobs (pair :: rest) = snapshot.consumeAll jobs rest := by
          simp [Snapshot.consumeAll, places]
        obtain ⟨queue, limits, counts⟩ := @inductionHypothesis snapshot later
        rw [folded]
        refine ⟨queue, limits, fun tenant => ?_⟩
        rw [counts, placedFor_cons]
        simp [placing, places]

/-- A tenant none of whose jobs is queued gets nothing. -/
theorem placedFor_stranger {tenant : TenantID} {outcomes : List (OrderedJob N × PolicyDecision N)}
    (stranger : ∀ pair ∈ outcomes, pair.1.job.tenant ≠ tenant) : placedFor tenant outcomes = 0 := by
  refine drawn_none ?_
  rintro ⟨pair, member, places⟩
  simp only [placing, ofTenant, Bool.and_eq_true, decide_eq_true_eq] at places
  exact stranger pair member places.2

/-! ### A leader's term -/

/-- The tenant's maximum is this one whenever it has a job. -/
def quotaSet (tenant : TenantID) (max : Int) (db : Database) : Bool :=
  db.jobs.rows.all (fun job => job.tenant ≠ tenant) || tenantMaxGPUs db.toDb tenant = some max

/-- Everything that commits between two statements of a snapshot. -/
def Pauses.all (pauses : Pauses) : List Request :=
  pauses.afterJobs ++ (pauses.afterWorkers ++ (pauses.afterPools ++ (pauses.afterRunning ++
    (pauses.afterActive ++ pauses.afterMax))))

/-- A condition holds before and after each of some requests. -/
def duringRequests (service : Service) (condition : Database → Bool) :
    List Request → Database → Bool
  | [], db => condition db
  | asked :: rest, db =>
      condition db &&
        duringRequests service condition rest ((Call.request asked).perform service db)

theorem quotaSet_limit {tenant : TenantID} {max : Int} {db : Database}
    (set_ : quotaSet tenant max db = true) {id : JobID} {job : Job}
    (found : db.jobs.find id = some job) (own : job.tenant = tenant) :
    tenantMaxGPUs db.toDb tenant = some max := by
  rcases Bool.or_eq_true_iff.mp set_ with stranger | limit
  · have apart := List.all_eq_true.mp stranger job (Table.find_mem found)
    exact absurd own (of_decide_eq_true apart)
  · exact of_decide_eq_true limit

theorem duringRequests_append {service : Service} {condition : Database → Bool}
    {one two : List Request} {db : Database}
    (during : duringRequests service condition (one ++ two) db = true) :
    duringRequests service condition two (requests service one db) = true := by
  induction one generalizing db with
  | nil => exact during
  | cons asked rest inductionHypothesis =>
      exact inductionHypothesis (Bool.and_eq_true_iff.mp during).2

theorem duringRequests_start {service : Service} {condition : Database → Bool}
    {asked : List Request} {db : Database}
    (during : duringRequests service condition asked db = true) : condition db = true := by
  cases asked with
  | nil => exact during
  | cons first rest => exact (Bool.and_eq_true_iff.mp during).1

/-- What requests keep of a database: its books stay balanced, its jobs stay in their rows, and no
tenant's count goes up. -/
structure Follows (db next : Database) : Prop where
  balanced : Balanced next.toBooks
  jobs : ∀ id job, db.jobs.find id = some job →
    ∃ moved, next.jobs.find id = some (Job.saved job moved)
  counts : ∀ tenant,
    tenantActiveGPUs next.toBooks tenant ≤ tenantActiveGPUs db.toBooks tenant
  asking : Asking db.toBooks → Asking next.toBooks

theorem Follows.refl {db : Database} (balanced : Balanced db.toBooks) : Follows db db :=
  ⟨balanced, fun _ job found => ⟨job, found⟩, fun _ => le_refl _, id⟩

theorem Follows.trans {one two three : Database} (first : Follows one two)
    (second : Follows two three) : Follows one three where
  balanced := second.balanced
  jobs id job found := by
    obtain ⟨middle, hasMiddle⟩ := first.jobs id job found
    obtain ⟨moved, hasMoved⟩ := second.jobs id _ hasMiddle
    exact ⟨moved, hasMoved⟩
  counts tenant := (second.counts tenant).trans (first.counts tenant)
  asking := second.asking ∘ first.asking

/-- A call leaves every job in its row. -/
theorem Call.jobs_stay (service : Service) (call : Call) {db : Database}
    (balanced : Balanced db.toBooks) {id : JobID} {job : Job}
    (found : db.jobs.find id = some job) :
    ∃ moved, (call.perform service db).jobs.find id = some (Job.saved job moved) := by
  obtain ⟨_, hasLater, ⟨moved, rfl⟩, _⟩ := (call.deed service balanced).job found
  exact ⟨moved, hasLater⟩

/-- A call that takes a turn of the books follows. -/
theorem follows_of_turn (service : Service) (call : Call) {db : Database}
    (balanced : Balanced db.toBooks)
    (turn : Turn db.toBooks (call.perform service db).toBooks) :
    Follows db (call.perform service db) where
  balanced := balanced.change (call.perform_changes service balanced)
  jobs _ _ found := call.jobs_stay service balanced found
  counts tenant := by
    refine turn.tenantActiveGPUs_le balanced.sound (fun id job found => ?_) tenant
    obtain ⟨moved, hasMoved⟩ := call.jobs_stay service balanced found
    exact ⟨_, hasMoved, rfl⟩
  asking asking := asking.change (call.perform_changes service balanced)

theorem request_follows (service : Service) (asked : Request) {db : Database}
    (balanced : Balanced db.toBooks) :
    Follows db ((Call.request asked).perform service db) := by
  refine follows_of_turn service _ balanced ?_
  rcases commit_cases ((Call.request asked).body service) db with ⟨_, finished, _⟩ | unchanged
  · exact asked.turns service balanced (onTables_ok.mp finished).1
  · rw [Call.perform, unchanged]
    exact .moves .refl

theorem requests_follow (service : Service) (asked : List Request) {db : Database}
    (balanced : Balanced db.toBooks) : Follows db (requests service asked db) := by
  induction asked generalizing db with
  | nil => exact .refl balanced
  | cons first rest inductionHypothesis =>
      have next := request_follows service first balanced
      exact next.trans (inductionHypothesis next.balanced)

/-- Whatever part of the pending decisions comes to be applied, the tenant stays within its
maximum. -/
structure Kept (tenant : TenantID) (max : Int) (leader : Leader N) : Prop where
  balanced : Balanced leader.db.toBooks
  asking : Asking leader.db.toBooks
  known : ∀ pair ∈ leader.pending, pair.2.job = pair.1.job.id ∧
    ∃ moved, leader.db.jobs.find pair.1.job.id = some (Job.saved pair.1.job moved)
  within : ∀ front back, leader.pending = front ++ back →
    tenantActiveGPUs leader.db.toBooks tenant + placedFor tenant front ≤ max

theorem Kept.count {tenant : TenantID} {max : Int} {leader : Leader N}
    (kept : Kept tenant max leader) : tenantActiveGPUs leader.db.toBooks tenant ≤ max := by
  have bound := kept.within [] leader.pending rfl
  simpa [placedFor, drawn] using bound

/-- Of a kept state and a database that follows, some of the pending decisions are kept. -/
theorem Kept.follow {tenant : TenantID} {max : Int} {leader : Leader N}
    (kept : Kept tenant max leader) {db : Database} (follows : Follows leader.db db) :
    Kept tenant max { leader with db } where
  balanced := follows.balanced
  asking := follows.asking kept.asking
  known pair member := by
    obtain ⟨same, moved, found⟩ := kept.known pair member
    obtain ⟨later, hasLater⟩ := follows.jobs _ _ found
    exact ⟨same, later, hasLater⟩
  within front back split := by
    have bound := kept.within front back split
    have fewer := follows.counts tenant
    show tenantActiveGPUs db.toBooks tenant + placedFor tenant front ≤ max
    omega

/-- An applied decision adds to the count of a tenant at most what it places for it. -/
theorem applyDecision_count {service : Service} {db : Database}
    {pair : OrderedJob N × PolicyDecision N} {moved : Job} (balanced : Balanced db.toBooks)
    (sameJob : pair.2.job = pair.1.job.id)
    (found : db.jobs.find pair.1.job.id = some (Job.saved pair.1.job moved))
    (positive : 0 < pair.1.job.requirements.gpus) (epoch : Int) (tickID : String)
    (attempt : AttemptID) (reservation : ReservationID) (now appliedAt : Time)
    (tenant : TenantID) :
    tenantActiveGPUs ((Call.applyDecision epoch tickID pair.2.toDecision attempt reservation now
        appliedAt).perform service db).toBooks tenant ≤
      tenantActiveGPUs db.toBooks tenant +
        if placing (ofTenant tenant) pair.1 pair.2 then pair.1.job.requirements.gpus else 0 := by
  have turned : Turn db.toBooks ((Call.applyDecision epoch tickID pair.2.toDecision attempt
      reservation now appliedAt).perform service db).toBooks → _ := fun turn =>
    (follows_of_turn service _ balanced turn).counts tenant
  rcases commit_cases ((Call.applyDecision epoch tickID pair.2.toDecision attempt reservation now
      appliedAt).body service) db with ⟨_, finished, _⟩ | unchanged
  · obtain ⟨_, _, checks, enacts⟩ := bind_ok.mp finished
    obtain ⟨_, rfl⟩ := checkEpoch_ok.mp checks
    rcases enact_spec (onTables_ok.mp enacts).1 with turn |
      ⟨places, placement, ofDecision, _, _, _, wrote⟩
    · have fewer := turned turn
      split <;> omega
    · have stored := placement.jobFound
      rw [ofDecision, sameJob] at stored
      have same : placement.job = Job.saved pair.1.job moved :=
        Option.some.inj (stored.symm.trans found)
      rw [show ((Call.applyDecision epoch tickID pair.2.toDecision attempt reservation now
          appliedAt).perform service db).toBooks = placement.result from wrote,
        placement.tenantActiveGPUs balanced.sound tenant, same]
      have same_action : pair.2.action = .place := places
      simp only [placing, same_action, ofTenant, decide_true, Bool.true_and, decide_eq_true_eq]
      exact le_refl _
  · have fewer := turned (by rw [Call.perform, unchanged]; exact .moves .refl)
    split <;> omega

/-- Applying the next decision keeps a tenant within its maximum. -/
theorem Kept.apply {service : Service} {tenant : TenantID} {max : Int} {leader : Leader N}
    (kept : Kept tenant max leader) {pair : OrderedJob N × PolicyDecision N}
    {rest : List (OrderedJob N × PolicyDecision N)} (next : leader.pending = pair :: rest)
    (tickID : String) (attempt : AttemptID) (reservation : ReservationID) (now appliedAt : Time) :
    Kept tenant max
      { leader with
        db := (Call.applyDecision leader.epoch tickID pair.2.toDecision attempt reservation
          now appliedAt).perform service leader.db
        pending := rest } := by
  obtain ⟨sameJob, moved, found⟩ := kept.known pair (next ▸ List.mem_cons_self)
  have added := @applyDecision_count N service leader.db pair moved kept.balanced sameJob found
    (kept.asking _ (Job.saved pair.1.job moved) found) leader.epoch tickID attempt reservation now
    appliedAt tenant
  generalize Call.applyDecision leader.epoch tickID pair.2.toDecision attempt reservation now
    appliedAt = call at added ⊢
  have changes := call.perform_changes service kept.balanced
  refine ⟨kept.balanced.change changes, kept.asking.change changes, fun other member => ?_,
    fun front back split => ?_⟩
  · obtain ⟨same, _, hasOther⟩ := kept.known other (next ▸ List.mem_cons_of_mem pair member)
    obtain ⟨later, hasLater⟩ := call.jobs_stay service kept.balanced hasOther
    exact ⟨same, later, hasLater⟩
  · have within := kept.within (pair :: front) back
      (by rw [next, List.cons_append, ← show rest = front ++ back from split])
    rw [placedFor_cons] at within
    show tenantActiveGPUs (call.perform service leader.db).toBooks tenant + placedFor tenant front ≤
      max
    omega

theorem Kept.initial (tenant : TenantID) {max : Int} (positive : 0 < max) :
    Kept tenant max (Leader.initial N) where
  balanced := Balanced.initial
  asking _ _ found := by cases found
  known _ member := by cases member
  within front _ split := by
    obtain ⟨rfl, _⟩ := List.append_eq_nil_iff.mp split.symm
    exact positive.le

/-! ### A tick -/

variable [Number N]

/-- The decisions of a tick up to any of them keep a tenant's count within its maximum. -/
theorem tickOutcomes_within (policies : Policies N) (digest : Snapshot N → String)
    (snapshot : Snapshot N) {tenant : TenantID} {max : Int} (positive : 0 < max)
    (limit : (∃ job ∈ snapshot.jobs, job.tenant = tenant) →
      snapshot.tenantMaxGPUs tenant = some max)
    (start : snapshot.tenantActiveGPUs tenant ≤ max)
    {front back : List (OrderedJob N × PolicyDecision N)}
    (split : tickOutcomes policies digest snapshot = front ++ back) :
    snapshot.tenantActiveGPUs tenant + placedFor tenant front ≤ max := by
  unfold tickOutcomes tickGroups at split
  generalize policyNames snapshot = names at split
  induction names generalizing snapshot front with
  | nil =>
      obtain ⟨rfl, _⟩ := List.append_eq_nil_iff.mp split.symm
      simpa [placedFor, drawn] using start
  | cons name rest inductionHypothesis =>
      -- a part of the group of this name is within the maximum
      have part : ∀ {one two : List (OrderedJob N × PolicyDecision N)},
          (decideGroup policies digest snapshot name).1.outcomes = one ++ two →
            snapshot.tenantActiveGPUs tenant + placedFor tenant one ≤ max := by
        intro one two cut
        by_cases queued : ∃ job ∈ snapshot.jobs, job.tenant = tenant
        · have bound := (tenant_meter _ positive (limit queued)).front_le trivial
            (show 0 ≤ max - snapshot.tenantActiveGPUs tenant by omega) cut
          have same : placedFor tenant one ≤ max - snapshot.tenantActiveGPUs tenant := bound
          omega
        · rw [placedFor_stranger fun pair member own => queued ⟨pair.1.job, ?_, own⟩]
          · omega
          · have among : pair ∈ (decideGroup policies digest snapshot name).1.outcomes := by
              rw [cut]
              exact List.mem_append_left two member
            exact (List.mem_filter.mp (mem_outcomes among).1).1
      obtain ⟨queue, limits, counts⟩ := @consumeAll_spec N snapshot (snapshot.group name).jobs
        (decideGroup policies digest snapshot name).1.outcomes fun pair member => find_outcome member
      simp only [outputs, List.flatMap_cons] at split
      rcases List.append_eq_append_iff.mp split.symm with ⟨others, whole, _⟩ | ⟨others, cut, later⟩
      · exact part whole
      · rw [cut, placedFor_append]
        have next := @inductionHypothesis (decideGroup policies digest snapshot name).2
          (fun queued => (congrFun limits tenant).trans (limit (queue ▸ queued)))
          ((counts tenant).le.trans (part (List.append_nil _).symm)) _ later
        rw [show (decideGroup policies digest snapshot name).2.tenantActiveGPUs tenant = _ from
          counts tenant] at next
        omega

/-- The groups of a tick are of its own queue. -/
theorem mem_tickOutcomes {policies : Policies N} {digest : Snapshot N → String}
    {snapshot : Snapshot N} {pair : OrderedJob N × PolicyDecision N}
    (member : pair ∈ tickOutcomes policies digest snapshot) :
    pair.1.job ∈ snapshot.jobs ∧ pair.2.job = pair.1.job.id := by
  obtain ⟨group, among, outcome⟩ := List.mem_flatMap.mp member
  obtain ⟨before, name, _, _, rfl⟩ := mem_outputs among
  obtain ⟨queued, same⟩ := mem_outcomes outcome
  have queue : (passed (decideGroup policies digest) before snapshot).jobs = snapshot.jobs := by
    refine @passed_keeps _ _ _ _ (fun left : Snapshot N => left.jobs = snapshot.jobs) before
      (fun name _ left kept => ?_) snapshot rfl
    exact (consumeAll_spec fun pair member => find_outcome member).1.trans kept
  refine ⟨?_, same⟩
  rw [← queue]
  exact (List.mem_filter.mp queued).1

/-! ### The quota -/

/-- A condition holds in the states around an act, and between the statements of a tick. -/
def LeaderAct.during (service : Service) (condition : Database → Bool) (leader : Leader N) :
    LeaderAct N → Bool
  | .tick _ pauses _ => duringRequests service condition pauses.all leader.db
  | _ => condition leader.db

/-- A condition holds in every state under a leader. -/
def everyState (service : Service) (policies : Policies N) (digest : Snapshot N → String)
    (condition : Database → Bool) : List (LeaderAct N) → Leader N → Bool
  | [], leader => condition leader.db
  | act :: rest, leader =>
      act.during service condition leader &&
        everyState service policies digest condition rest
          (act.perform service policies digest leader)

/-- A tick keeps a tenant within its maximum. -/
theorem Kept.tick {service : Service} {policies : Policies N} {digest : Snapshot N → String}
    {tenant : TenantID} {max : Int} (positive : 0 < max) {leader : Leader N}
    (kept : Kept tenant max leader) (limit : Nat) (pauses : Pauses) (outside : Outside N)
    (set_ : duringRequests service (quotaSet tenant max) pauses.all leader.db = true) :
    Kept tenant max
      ((LeaderAct.tick limit pauses outside).perform service policies digest leader) := by
  have one := requests_follow service pauses.afterJobs kept.balanced
  have two := requests_follow service pauses.afterWorkers one.balanced
  have three := requests_follow service pauses.afterPools two.balanced
  have four := requests_follow service pauses.afterRunning three.balanced
  have five := requests_follow service pauses.afterActive four.balanced
  have six := requests_follow service pauses.afterMax five.balanced
  have counted := one.trans (two.trans (three.trans four))
  have limited := counted.trans five
  have throughout := limited.trans six
  have setLast := duringRequests_start (duringRequests_append (duringRequests_append
    (duringRequests_append (duringRequests_append (duringRequests_append set_)))))
  have start := (counted.counts tenant).trans kept.count
  refine ⟨throughout.balanced, throughout.asking kept.asking, fun pair member => ?_,
    fun front back split => ?_⟩
  · obtain ⟨queued, same⟩ := mem_tickOutcomes member
    exact ⟨same, throughout.jobs _ _ (listQueued_found queued).1⟩
  · have bound := tickOutcomes_within policies digest
      (readSnapshot service limit pauses outside leader.db).1 positive ?_ start split
    · have later := (five.trans six).counts tenant
      exact (Int.add_le_add_right later _).trans bound
    · rintro ⟨job, queued, own⟩
      obtain ⟨moved, found⟩ := limited.jobs _ _ (listQueued_found queued).1
      exact quotaSet_limit setLast found own

/-- One act keeps a tenant within its maximum. -/
theorem Kept.act {service : Service} {policies : Policies N} {digest : Snapshot N → String}
    {tenant : TenantID} {max : Int} (positive : 0 < max) {leader : Leader N}
    (kept : Kept tenant max leader) (act : LeaderAct N)
    (set_ : act.during service (quotaSet tenant max) leader = true) :
    Kept tenant max (act.perform service policies digest leader) := by
  cases act with
  | request asked => exact kept.follow (request_follows service asked kept.balanced)
  | tryLead =>
      have bound := kept.count
      refine ⟨kept.balanced, kept.asking, (fun _ member => by cases member),
        fun front _ split => ?_⟩
      obtain ⟨rfl, _⟩ := List.append_eq_nil_iff.mp split.symm
      show tenantActiveGPUs leader.db.toBooks tenant + placedFor tenant [] ≤ max
      simpa [placedFor, drawn] using bound
  | tick limit pauses outside => exact kept.tick positive limit pauses outside set_
  | apply tickID attempt reservation now appliedAt =>
      cases next : leader.pending with
      | nil => simpa [LeaderAct.perform, next] using kept
      | cons pair rest =>
          have applied := @Kept.apply N service _ _ _ kept pair rest next tickID attempt reservation
            now appliedAt
          simpa [LeaderAct.perform, next] using applied

/-- A tenant's maximum holds in every state under a leader: the GPUs its jobs hold never exceed
it. -/
theorem quota_kept (service : Service) (policies : Policies N) (digest : Snapshot N → String)
    {tenant : TenantID} {max : Int} (positive : 0 < max) (acts : List (LeaderAct N))
    (set_ : everyState service policies digest (quotaSet tenant max) acts (.initial N) = true) :
    tenantActiveGPUs (lead service policies digest acts (.initial N)).db.toBooks tenant ≤ max := by
  have start : Kept tenant max (Leader.initial N) := .initial tenant positive
  generalize Leader.initial N = leader at set_ start ⊢
  induction acts generalizing leader with
  | nil => exact start.count
  | cons act rest inductionHypothesis =>
      obtain ⟨here, later⟩ := Bool.and_eq_true_iff.mp set_
      exact inductionHypothesis _ later (start.act positive act here)

end

/-! ### A tenant at its maximum -/

def onePolicy : Policies Rat where
  named _ := none
  default := fifoPolicy

/-- Three jobs of one GPU are submitted under a maximum of two GPUs, the last of them between two
statements of the tick, and the worker has room for all. -/
def limitedRun : List (LeaderAct Rat) :=
  let member : Principal :=
    { kind := .user, user := "user", tenant := "tenant", role := .member, worker := "", pool := "" }
  let bootstrap : Principal := { member with kind := .bootstrap, pool := "pool" }
  let submit (id : JobID) : Request := .submit member (cappedRequest 0) "request" id 0 0
  let quiet : Pauses :=
    { afterJobs := [], afterWorkers := [], afterPools := [], afterRunning := [], afterActive := []
      afterMax := [] }
  let outside : Outside Rat :=
    { now := 0, tenantUsage := [], pue _ := 1
      carbon _ := { current := none, forecast := [], forecastModel := "" } }
  [.request (.createTenant "tenant" "project" 10000000 0 2),
    .request (.upsertPool dollarPool),
    .request (.register bootstrap "worker"
      { gpuModel := "a100", gpus := 4, gpuMemGB := 80, runtimes := ["sim"], region := "" }
      "worker" 0),
    .request (submit "one"), .request (submit "two"),
    .tryLead,
    .tick 500 { quiet with afterActive := [submit "three"] } outside,
    .apply "tick" "first" "one" 0 0, .apply "tick" "second" "two" 0 0,
    .tick 500 quiet outside,
    .apply "tock" "third" "three" 0 0]

/-- The tenant comes to its maximum and stays there. -/
theorem quota_kept_limited :
    tenantActiveGPUs (lead plainService onePolicy (fun _ => "") limitedRun (.initial Rat)).db.toBooks
      "tenant" ≤ 2 :=
  quota_kept plainService onePolicy (fun _ => "") (by decide) limitedRun (by decide +kernel)

example :
    tenantActiveGPUs (lead plainService onePolicy (fun _ => "") limitedRun (.initial Rat)).db.toBooks
      "tenant" = 2 := by
  decide +kernel

end GpuBroker.ControlPlane
