/-
This file is how long a job can be held back for cleaner power, over everything
that can happen to it: its ticks, its attempts and its retries.

Whether a job was delayed is remembered in its row alone. The row keeps the
memory through everything but the close of an attempt, which takes it away; so
the question is only whether an attempt of a delayed job ends in the queue.
-/
import GpuBroker.ControlPlane.Deferrals
import GpuBroker.ControlPlane.Quotas
import GpuBroker.ControlPlane.Queues
import Mathlib.Data.List.Dedup

namespace GpuBroker.ControlPlane

open Library Library.Transaction

/-! ### The window of a delay -/

/-- A time a job may be delayed to: later than now, within the delay it allows, and early enough to run
to its end before its deadline. -/
structure Job.Within (job : Job) (now time : Time) : Prop where
  later : now < time
  window : time ≤ now + job.maxDelay
  deadline : ∀ deadline, job.deadline = some deadline → time ≤ deadline - job.maxRuntime

section

variable {N : Type} [Number N] {snapshot : Snapshot N} {policy : Policy N} {job : Job}

/-- The lowest point of a forecast before some limit lies ahead, before the limit. -/
theorem lowest_timely {now limit chosen : Time} {points : List (ForecastPoint N)} {current : N}
    (found : (points.foldl (fun lowest point =>
      if now < point.time ∧ point.time ≤ limit ∧ Number.less point.high lowest.2 then
        (some point.time, point.high) else lowest) ((none : Option Time), current)).1 = some chosen) :
    now < chosen ∧ chosen ≤ limit := by
  revert found
  refine List.foldlRecOn (motive := fun lowest : Option Time × N =>
    lowest.1 = some chosen → now < chosen ∧ chosen ≤ limit) _ _ nofun fun lowest known point _ => ?_
  split
  · next inside =>
    intro same
    cases same
    exact ⟨inside.1, inside.2.1⟩
  · exact known

theorem delayFor_within {best : Candidate N} {pool : Pool} {fallbacks : List String} {time : Time}
    {saved : N} (delays : delayFor job best pool snapshot policy fallbacks = some (time, saved)) :
    job.notBefore = none ∧ job.Within snapshot.now time := by
  unfold delayFor at delays
  split at delays
  · simp only at delays
    split at delays
    · cases delays
    next allowed =>
    simp only [not_or] at allowed
    split at delays
    · cases delays
    next chosen high found =>
    split at delays
    · cases delays
      obtain ⟨later, inside⟩ := lowest_timely (congrArg Prod.fst found)
      refine ⟨by simpa using allowed.2.2.2.2.2, later, ?_, fun deadline due => ?_⟩
      · refine inside.trans ?_
        cases job.deadline with
        | none => exact le_refl _
        | some deadline => exact min_le_left _ _
      · rw [due] at inside
        exact inside.trans (min_le_right _ _)
    · cases delays
  · cases delays

/-- A job is delayed to a time within its window, and never a second time. -/
theorem decideJob_delay {digest : String} {held : Held} {left : Left} {ordered : OrderedJob N}
    (delays : (decideJob snapshot policy digest held left ordered).1.action = .delay) :
    ordered.job.notBefore = none ∧ ∃ time,
      (decideJob snapshot policy digest held left ordered).1.delayUntil = some time ∧
        ordered.job.Within snapshot.now time := by
  revert delays
  unfold decideJob decideStuck decideBest
  simp only
  split
  · nofun
  split
  · nofun
  split
  · nofun
  split
  · split <;> nofun
  · split
    · next time saved found =>
      intro _
      obtain ⟨fresh, within⟩ := delayFor_within found
      exact ⟨fresh, time, rfl, within⟩
    · nofun

/-! ### The delays of a tick -/

variable {policies : Policies N} {digest : Snapshot N → String}

omit [Number N] in
theorem consumeAll_now (snapshot : Snapshot N) (jobs : List Job)
    (outcomes : List (OrderedJob N × PolicyDecision N)) :
    (snapshot.consumeAll jobs outcomes).now = snapshot.now := by
  unfold Snapshot.consumeAll
  refine List.foldlRecOn (motive := fun left : Snapshot N => left.now = snapshot.now) _ _ rfl ?_
  intro left same pair _
  split
  · exact same
  · exact same

/-- Every delay a tick decides on is of a job that has none, to a time within its window. -/
theorem tickOutcomes_delay {pair : OrderedJob N × PolicyDecision N}
    (member : pair ∈ tickOutcomes policies digest snapshot) (delays : pair.2.action = .delay) :
    pair.1.job.notBefore = none ∧
      ∃ time, pair.2.delayUntil = some time ∧ pair.1.job.Within snapshot.now time := by
  obtain ⟨group, among, outcome⟩ := List.mem_flatMap.mp member
  obtain ⟨before, name, _, _, rfl⟩ := mem_outputs among
  have now : (passed (decideGroup policies digest) before snapshot).now = snapshot.now := by
    refine @passed_keeps _ _ _ _ (fun left : Snapshot N => left.now = snapshot.now) before
      (fun name _ left kept => ?_) snapshot rfl
    exact (consumeAll_now _ _ _).trans kept
  obtain ⟨front, back, split, same⟩ := outputs_pair outcome
  rw [same] at delays ⊢
  obtain ⟨fresh, time, upTo, within⟩ := decideJob_delay delays
  rw [show ((passed (decideGroup policies digest) before snapshot).group name).now = snapshot.now
    from now] at within
  exact ⟨fresh, time, upTo, within⟩

theorem outcomes_distinct (policy : Policy N) (snapshot : Snapshot N) (digest : String) :
    ((policy.outcomes snapshot digest).map fun pair => pair.1.job.id).Nodup := by
  have jobs : (policy.outcomes snapshot digest).map Prod.fst = orderJobs snapshot policy :=
    List.map_fst_zip (length_outputs _ _ _).ge
  have ids := queue_distinct snapshot policy
  unfold queue at ids
  rw [← jobs, List.map_map, List.map_map] at ids
  exact ids

/-- The groups of some policies decide once on each of the jobs that name one of them. -/
theorem groups_distinct {left : Snapshot N} (queue : left.jobs = snapshot.jobs) {names : List String}
    (distinct : names.Nodup) :
    (((outputs (decideGroup policies digest) names left).flatMap Group.outcomes).map
        fun pair => pair.1.job.id).Nodup ∧
      ∀ pair ∈ (outputs (decideGroup policies digest) names left).flatMap Group.outcomes,
        pair.1.job ∈ snapshot.jobs ∧ pair.1.job.policyName ∈ names := by
  induction names generalizing left with
  | nil =>
      rw [show outputs (decideGroup policies digest) [] left = [] from rfl, List.flatMap_nil]
      exact ⟨List.nodup_nil, fun _ member => absurd member List.not_mem_nil⟩
  | cons name rest inductionHypothesis =>
      obtain ⟨fresh, distinct⟩ := List.nodup_cons.mp distinct
      obtain ⟨kept, _, _⟩ := @consumeAll_spec N left (left.group name).jobs
        (decideGroup policies digest left name).1.outcomes fun pair member => find_outcome member
      have later : (decideGroup policies digest left name).2.jobs = snapshot.jobs := kept.trans queue
      obtain ⟨others, known⟩ := inductionHypothesis later distinct
      have own : ∀ pair ∈ (decideGroup policies digest left name).1.outcomes,
          pair.1.job ∈ snapshot.jobs ∧ pair.1.job.policyName = name := by
        intro pair member
        obtain ⟨queued, named⟩ := List.mem_filter.mp (mem_outcomes member).1
        exact ⟨queue ▸ queued, of_decide_eq_true named⟩
      rw [outputs, List.flatMap_cons, List.map_append]
      refine ⟨List.nodup_append'.mpr ⟨outcomes_distinct _ _ _, others, fun id one two => ?_⟩, ?_⟩
      · obtain ⟨first, isFirst, rfl⟩ := List.mem_map.mp one
        obtain ⟨second, isSecond, same⟩ := List.mem_map.mp two
        have job := jobs_apart (known second isSecond).1 (own first isFirst).1 same
        have named := (known second isSecond).2
        rw [job, (own first isFirst).2] at named
        exact fresh named
      · intro pair member
        rcases List.mem_append.mp member with here | there
        · obtain ⟨queued, named⟩ := own pair here
          exact ⟨queued, named ▸ List.mem_cons_self⟩
        · obtain ⟨queued, named⟩ := known pair there
          exact ⟨queued, List.mem_cons_of_mem _ named⟩

/-- A tick decides on each job once. -/
theorem tickOutcomes_distinct (policies : Policies N) (digest : Snapshot N → String)
    (snapshot : Snapshot N) :
    ((tickOutcomes policies digest snapshot).map fun pair => pair.1.job.id).Nodup :=
  (@groups_distinct N _ snapshot policies digest snapshot rfl _
    ((List.perm_insertionSort _ _).nodup_iff.mpr (List.nodup_dedup _))).1

end

/-! ### The delays of a run -/

/-- A delay that was applied: of which job, when it was decided on, and to what time. -/
structure Delay where
  job : JobID
  decidedAt : Time
  notBefore : Option Time
  deriving DecidableEq

/-- How long a delay holds its job back. -/
def Delay.held (delay : Delay) : Duration :=
  (delay.notBefore.map fun time => time - delay.decidedAt).getD 0

section

variable {N : Type}

/-- The delays an act applies, where the pending decisions were made at some time. -/
def LeaderAct.delays (service : Service) (leader : Leader N) (decidedAt : Time) :
    LeaderAct N → List Delay
  | .apply tickID attempt reservation now appliedAt =>
      match leader.pending with
      | [] => []
      | (_, decision) :: _ =>
          let call := Call.applyDecision leader.epoch tickID decision.toDecision attempt reservation
            now appliedAt
          if decision.action = .delay ∧ (call.body service leader.db).isOk then
            [{ job := decision.job, decidedAt, notBefore := decision.delayUntil }]
          else []
  | _ => []

/-- When the pending decisions were made, after an act. -/
def LeaderAct.decidedAt (before : Time) : LeaderAct N → Time
  | .tick _ _ outside => outside.now
  | _ => before

variable [Number N]

/-- The delays that are applied over some acts. -/
def delaysOf (service : Service) (policies : Policies N) (digest : Snapshot N → String) :
    List (LeaderAct N) → Leader N → Time → List Delay
  | [], _, _ => []
  | act :: rest, leader, decidedAt =>
      act.delays service leader decidedAt ++
        delaysOf service policies digest rest (act.perform service policies digest leader)
          (act.decidedAt decidedAt)

/-! ### The condition -/

/-- No job that was delayed went from its attempt back into the queue. -/
def spares (db next : Database) : Bool :=
  db.jobs.rows.all fun job =>
    job.notBefore.isNone || !job.state.holdsCapacity ||
      (next.jobs.find job.id).all fun later => later.state ≠ .queued

/-- Nor did one by any of some requests. -/
def sparing (service : Service) : List Request → Database → Bool
  | [], _ => true
  | asked :: rest, db =>
      let next := (Call.request asked).perform service db
      spares db next && sparing service rest next

/-- Nor by the requests of an act; nothing else ends an attempt. -/
def LeaderAct.spares (service : Service) (leader : Leader N) : LeaderAct N → Bool
  | .request asked => sparing service [asked] leader.db
  | .tick _ pauses _ => sparing service pauses.all leader.db
  | _ => true

/-- No attempt of a job that was delayed ends with the job back in the queue. -/
def neverRequeued (service : Service) (policies : Policies N) (digest : Snapshot N → String) :
    List (LeaderAct N) → Leader N → Bool
  | [], _ => true
  | act :: rest, leader =>
      act.spares service leader &&
        neverRequeued service policies digest rest (act.perform service policies digest leader)

theorem spares_spec {db next : Database} (spared : spares db next = true) {id : JobID}
    {job later : Job} (found : db.jobs.find id = some job) (delayed : job.notBefore ≠ none)
    (held : job.state.holdsCapacity = true) (hasLater : next.jobs.find id = some later) :
    later.state ≠ .queued := by
  have row := List.all_eq_true.mp spared job (Table.find_mem found)
  rw [Table.find_key found, hasLater, held, Option.isNone_eq_false_iff.mpr
    (Option.isSome_iff_ne_none.mpr delayed)] at row
  simpa using row

/-! ### What a request leaves -/

/-- Of the jobs that may still be delayed the ones in the queue have no time set; of those that have
been the time is set, or they are finished. -/
structure Remembers (db : Database) (fresh spent : List JobID) : Prop where
  allowing : Allowing db.jobs
  fresh : ∀ id ∈ fresh, ∃ job, db.jobs.find id = some job ∧
    (job.state = .queued → job.notBefore = none)
  spent : ∀ id ∈ spent, ∃ job, db.jobs.find id = some job ∧
    (job.notBefore ≠ none ∨ job.state.terminal = true)

theorem Remembers.mono {db : Database} {fresh fewer spent : List JobID}
    (remembers : Remembers db fresh spent) (less : fewer ⊆ fresh) : Remembers db fewer spent :=
  ⟨remembers.allowing, fun id member => remembers.fresh id (less member), remembers.spent⟩

theorem request_writes (service : Service) (asked : Request) {db : Database}
    (balanced : Balanced db.toBooks) :
    Writes db.jobs ((Call.request asked).perform service db).jobs := by
  rcases commit_cases ((Call.request asked).body service) db with ⟨_, finished, _⟩ | unchanged
  · exact asked.writes service balanced (onTables_ok.mp finished).1
  · rw [Call.perform, unchanged]
    exact .nothing rfl

theorem Remembers.request {service : Service} {asked : Request} {db : Database}
    {fresh spent : List JobID} (remembers : Remembers db fresh spent)
    (balanced : Balanced db.toBooks)
    (spared : ControlPlane.spares db ((Call.request asked).perform service db) = true) :
    Remembers ((Call.request asked).perform service db) fresh spent := by
  have writes := request_writes service asked balanced
  refine ⟨writes.allowing remembers.allowing, fun id member => ?_, fun id member => ?_⟩
  · obtain ⟨job, found, unset⟩ := remembers.fresh id member
    obtain ⟨later, hasLater, postponed⟩ := writes.job found
    refine ⟨later, hasLater, fun queued => ?_⟩
    cases postponed with
    | kept saved notBefore queue => exact notBefore.trans (unset (queue queued))
    | closed saved held notBefore ended => exact notBefore
  · obtain ⟨job, found, set_⟩ := remembers.spent id member
    obtain ⟨later, hasLater, postponed⟩ := writes.job found
    refine ⟨later, hasLater, ?_⟩
    rcases set_ with delayed | finished
    · cases postponed with
      | kept saved notBefore queue => exact Or.inl (notBefore ▸ delayed)
      | closed saved held notBefore ended =>
          exact Or.inr (ended.resolve_left (spares_spec spared found delayed held hasLater))
    · obtain ⟨other, hasOther, _, _, edge⟩ :=
        ((Call.request asked).deed service balanced).job found
      cases hasLater.symm.trans hasOther
      refine Or.inr ?_
      rcases edge with same | further
      · rw [same]
        exact finished
      · rw [JobState.canTransition_not_terminal further] at finished
        cases finished

theorem Remembers.requests {service : Service} {asked : List Request} {db : Database}
    {fresh spent : List JobID} (remembers : Remembers db fresh spent)
    (balanced : Balanced db.toBooks) (spared : sparing service asked db = true) :
    Remembers (ControlPlane.requests service asked db) fresh spent := by
  induction asked generalizing db with
  | nil => exact remembers
  | cons first rest inductionHypothesis =>
      obtain ⟨here, later⟩ := Bool.and_eq_true_iff.mp spared
      exact inductionHypothesis (remembers.request balanced here)
        (request_follows service first balanced).balanced later

/-! ### What an applied decision leaves -/

/-- A decision that does not delay its job. -/
theorem Remembers.enacted {db next : Database} {fresh spent : List JobID} {decision : Decision}
    (remembers : Remembers db fresh spent) (enacted : Enacted decision db.jobs next.jobs)
    (action : decision.action ≠ .delay) : Remembers next fresh spent := by
  cases enacted with
  | nothing _ same =>
      obtain ⟨allowing, unset, set_⟩ := remembers
      rw [← same] at allowing unset set_
      exact ⟨allowing, unset, set_⟩
  | @left job moved _ found queued sets notBefore leaves =>
      refine ⟨fun id row hasRow => ?_, fun id member => ?_, fun id member => ?_⟩
      · rcases sets.found hasRow with ⟨rfl, _⟩ | ⟨_, before⟩
        · exact remembers.allowing _ job found
        · exact remembers.allowing id row before
      · by_cases own : id = job.id
        · rw [own]
          exact ⟨_, sets.find_self, fun stays => absurd stays leaves⟩
        · obtain ⟨row, hasRow, unset⟩ := remembers.fresh id member
          exact ⟨row, (sets.find_other own).trans hasRow, unset⟩
      · obtain ⟨row, hasRow, set_⟩ := remembers.spent id member
        by_cases own : id = job.id
        · rw [own] at hasRow ⊢
          cases found.symm.trans hasRow
          refine ⟨_, sets.find_self, Or.inl fun cleared => ?_⟩
          rcases set_ with delayed | finished
          · exact delayed (notBefore.symm.trans cleared)
          · rw [queued] at finished
            cases finished
        · exact ⟨row, (sets.find_other own).trans hasRow, set_⟩
  | delayed delays => exact absurd delays action

/-- A decision that delays its job, which had not been delayed. -/
theorem Remembers.delayed {db next : Database} {fresh spent : List JobID} {decision : Decision}
    {time : Time} (remembers : Remembers db (decision.job :: fresh) spent)
    (enacted : Enacted decision db.jobs next.jobs) (action : decision.action = .delay)
    (upTo : decision.delayUntil = some time) (others : decision.job ∉ fresh) :
    decision.job ∉ spent ∧ Remembers next fresh (spent ++ [decision.job]) := by
  cases enacted with
  | nothing other => exact absurd action other
  | left other => exact absurd action other
  | @delayed job moved _ found own queued sets notBefore =>
      rw [← own] at remembers others ⊢
      have unset : job.notBefore = none := by
        obtain ⟨row, hasRow, unset⟩ := remembers.fresh job.id List.mem_cons_self
        cases found.symm.trans hasRow
        exact unset queued
      have new : job.id ∉ spent := by
        intro member
        obtain ⟨row, hasRow, set_⟩ := remembers.spent job.id member
        cases found.symm.trans hasRow
        rcases set_ with delayed | finished
        · exact delayed unset
        · rw [queued] at finished
          cases finished
      refine ⟨new, fun id row hasRow => ?_, fun id member => ?_, fun id member => ?_⟩
      · rcases sets.found hasRow with ⟨rfl, _⟩ | ⟨_, before⟩
        · exact remembers.allowing _ job found
        · exact remembers.allowing id row before
      · obtain ⟨row, hasRow, unset⟩ := remembers.fresh id (List.mem_cons_of_mem _ member)
        have apart : id ≠ job.id := fun same => others (same ▸ member)
        exact ⟨row, (sets.find_other apart).trans hasRow, unset⟩
      · rcases List.mem_append.mp member with before | this
        · obtain ⟨row, hasRow, set_⟩ := remembers.spent id before
          have apart : id ≠ job.id := fun same => new (same ▸ before)
          exact ⟨row, (sets.find_other apart).trans hasRow, set_⟩
        · rw [List.mem_singleton.mp this]
          refine ⟨_, sets.find_self, Or.inl ?_⟩
          show moved.notBefore ≠ none
          rw [notBefore, upTo]
          nofun

/-! ### One act -/

/-- The pending decisions are about jobs that are there, and every delay, pending or applied, is to a
time within the window of its job. -/
structure Timed (leader : Leader N) (decidedAt : Time) (delays : List Delay) : Prop where
  balanced : Balanced leader.db.toBooks
  known : ∀ pair ∈ leader.pending, pair.2.job = pair.1.job.id ∧
    (∃ moved, leader.db.jobs.find pair.1.job.id = some (Job.saved pair.1.job moved)) ∧
      (pair.2.action = .delay → ∃ time, pair.2.delayUntil = some time ∧
        pair.1.job.Within decidedAt time)
  applied : ∀ delay ∈ delays, ∃ job time, leader.db.jobs.find delay.job = some job ∧
    delay.notBefore = some time ∧ job.Within delay.decidedAt time

/-- The jobs of the pending delays. -/
def Leader.delaying (leader : Leader N) : List JobID :=
  (leader.pending.filter fun pair => pair.2.action = .delay).map fun pair => pair.1.job.id

/-- No job has been delayed twice, and none is about to be. -/
structure Once (leader : Leader N) (delays : List Delay) : Prop where
  distinct : (leader.pending.map fun pair => pair.1.job.id).Nodup
  remembers : Remembers leader.db leader.delaying (delays.map Delay.job)
  single : (delays.map Delay.job).Nodup

/-- The jobs of one database are in their rows in another. -/
def JobsStay (db next : Database) : Prop :=
  ∀ id job, db.jobs.find id = some job → ∃ moved, next.jobs.find id = some (Job.saved job moved)

omit [Number N] in
theorem Timed.stay {leader : Leader N} {decidedAt : Time} {delays : List Delay} {db : Database}
    (timed : Timed leader decidedAt delays) (balanced : Balanced db.toBooks)
    (stay : JobsStay leader.db db) : Timed { leader with db } decidedAt delays where
  balanced := balanced
  known pair member := by
    obtain ⟨same, ⟨_, found⟩, delays⟩ := timed.known pair member
    obtain ⟨moved, hasMoved⟩ := stay _ _ found
    exact ⟨same, ⟨moved, hasMoved⟩, delays⟩
  applied delay member := by
    obtain ⟨job, time, found, upTo, later, window, deadline⟩ := timed.applied delay member
    obtain ⟨moved, hasMoved⟩ := stay _ _ found
    exact ⟨_, time, hasMoved, upTo, later, window, deadline⟩

variable {service : Service} {policies : Policies N} {digest : Snapshot N → String}
  {leader : Leader N} {decidedAt : Time} {delays : List Delay}

omit [Number N] in
/-- A snapshot is read over requests that follow one another. -/
theorem readSnapshot_db (service : Service) (limit : Nat) (pauses : Pauses) (outside : Outside N)
    (db : Database) :
    (readSnapshot service limit pauses outside db).2 = requests service pauses.all db := by
  have split : ∀ (one two : List Request) (db : Database),
      requests service (one ++ two) db = requests service two (requests service one db) := by
    intro one two db
    unfold requests
    rw [List.map_append, run_append]
  unfold readSnapshot Pauses.all
  simp only [split]

theorem Timed.tick (timed : Timed leader decidedAt delays) (limit : Nat) (pauses : Pauses)
    (outside : Outside N) :
    Timed ((LeaderAct.tick limit pauses outside).perform service policies digest leader) outside.now
      delays := by
  have follows := requests_follow service pauses.all timed.balanced
  rw [← readSnapshot_db service limit pauses outside leader.db] at follows
  have stayed := timed.stay follows.balanced follows.jobs
  refine ⟨stayed.balanced, fun pair member => ?_, stayed.applied⟩
  obtain ⟨queued, same⟩ := mem_tickOutcomes member
  exact ⟨same, follows.jobs _ _ (listQueued_found queued).1, fun delays =>
    (tickOutcomes_delay member delays).2⟩

/-- A decision that came to be applied was enacted on the tables, and one that did not left them. -/
theorem applied_cases (service : Service) (epoch : Int) (tickID : String) (decision : Decision)
    (attempt : AttemptID) (reservation : ReservationID) (now appliedAt : Time) (db : Database) :
    let call := Call.applyDecision epoch tickID decision attempt reservation now appliedAt
    (call.body service db).isOk = true ∧ Enacted decision db.jobs (call.perform service db).jobs ∨
      (call.body service db).isOk = false ∧ call.perform service db = db := by
  intro call
  cases ran : call.body service db with
  | error fault =>
      refine Or.inr ⟨rfl, ?_⟩
      unfold Call.perform commit
      rw [ran]
  | ok pair =>
      obtain ⟨_, next⟩ := pair
      have wrote : call.perform service db = next := by
        unfold Call.perform commit
        rw [ran]
      obtain ⟨_, _, checks, enacts⟩ := bind_ok.mp ran
      obtain ⟨_, rfl⟩ := checkEpoch_ok.mp checks
      rw [wrote]
      exact Or.inl ⟨rfl, enact_writes (onTables_ok.mp enacts).1⟩

theorem Timed.act (timed : Timed leader decidedAt delays) (act : LeaderAct N) :
    Timed (act.perform service policies digest leader) (act.decidedAt decidedAt)
      (delays ++ act.delays service leader decidedAt) := by
  cases act with
  | request asked =>
      have follows := request_follows service asked timed.balanced
      exact (List.append_nil delays).symm ▸ timed.stay follows.balanced follows.jobs
  | tryLead =>
      obtain ⟨balanced, _, applied⟩ := timed
      exact (List.append_nil delays).symm ▸ ⟨balanced, (fun _ member => by cases member), applied⟩
  | tick limit pauses outside =>
      exact (List.append_nil delays).symm ▸ timed.tick limit pauses outside
  | apply tickID attempt reservation now appliedAt =>
      cases pending : leader.pending with
      | nil => simpa [LeaderAct.perform, LeaderAct.delays, LeaderAct.decidedAt, pending] using timed
      | cons pair rest =>
          let call := Call.applyDecision leader.epoch tickID pair.2.toDecision attempt reservation now
            appliedAt
          have balanced := timed.balanced.change (call.perform_changes service timed.balanced)
          have stayed := timed.stay balanced fun id job found =>
            call.jobs_stay service timed.balanced found
          have here : pair ∈ leader.pending := pending ▸ List.mem_cons_self
          have performed : (LeaderAct.apply tickID attempt reservation now appliedAt).perform service
              policies digest leader = { leader with db := call.perform service leader.db, pending := rest } := by
            simp only [LeaderAct.perform, pending]
            rfl
          rw [performed]
          refine ⟨stayed.balanced, fun other member => stayed.known other ?_, fun delay member => ?_⟩
          · exact pending ▸ List.mem_cons_of_mem pair member
          rcases List.mem_append.mp member with before | this
          · exact stayed.applied delay before
          · unfold LeaderAct.delays at this
            rw [pending] at this
            simp only at this
            split at this
            · next delays =>
              rw [List.mem_singleton.mp this]
              obtain ⟨same, ⟨moved, found⟩, timely⟩ := stayed.known pair here
              obtain ⟨time, upTo, later, window, deadline⟩ := timely delays.1
              exact ⟨Job.saved pair.1.job moved, time, same ▸ found, upTo, later, window, deadline⟩
            · cases this

/-- The jobs a tick delays are in the queue, with no time set, through the requests that go on. -/
theorem Once.tick (once : Once leader delays) (timed : Timed leader decidedAt delays) (limit : Nat)
    (pauses : Pauses) (outside : Outside N) (spared : sparing service pauses.all leader.db = true) :
    Once ((LeaderAct.tick limit pauses outside).perform service policies digest leader) delays := by
  let snapshot := (readSnapshot service limit pauses outside leader.db).1
  have start : Remembers leader.db (((tickOutcomes policies digest snapshot).filter fun pair =>
      pair.2.action = .delay).map fun pair => pair.1.job.id) (delays.map Delay.job) := by
    refine ⟨once.remembers.allowing, fun id member => ?_, once.remembers.spent⟩
    obtain ⟨pair, listed, rfl⟩ := List.mem_map.mp member
    obtain ⟨decided, delays⟩ := List.mem_filter.mp listed
    obtain ⟨queued, _⟩ := mem_tickOutcomes decided
    exact ⟨pair.1.job, (listQueued_found queued).1, fun _ =>
      (tickOutcomes_delay decided (of_decide_eq_true delays)).1⟩
  have after := start.requests timed.balanced spared
  rw [← readSnapshot_db service limit pauses outside leader.db] at after
  exact ⟨tickOutcomes_distinct policies digest snapshot, after, once.single⟩

omit [Number N] in
/-- Applying the next decision delays its job, if at all, for the first time. -/
theorem Once.apply (once : Once leader delays) (timed : Timed leader decidedAt delays)
    {pair : OrderedJob N × PolicyDecision N} {rest : List (OrderedJob N × PolicyDecision N)}
    (pending : leader.pending = pair :: rest) (tickID : String) (attempt : AttemptID)
    (reservation : ReservationID) (now appliedAt : Time) :
    let call := Call.applyDecision leader.epoch tickID pair.2.toDecision attempt reservation now
      appliedAt
    Once { leader with db := call.perform service leader.db, pending := rest }
      (delays ++ (LeaderAct.apply tickID attempt reservation now appliedAt).delays service leader
        decidedAt) := by
  intro call
  obtain ⟨distinct, remembers, single⟩ := once
  rw [pending, List.map_cons, List.nodup_cons] at distinct
  obtain ⟨same, _, timely⟩ := timed.known pair (pending ▸ List.mem_cons_self)
  let later := (rest.filter fun pair => pair.2.action = .delay).map fun pair => pair.1.job.id
  have others : pair.1.job.id ∉ later := by
    intro member
    obtain ⟨other, listed, ids⟩ := List.mem_map.mp member
    exact distinct.1 (List.mem_map.mpr ⟨other, List.mem_of_mem_filter listed, ids⟩)
  unfold Leader.delaying at remembers
  unfold LeaderAct.delays
  rw [pending] at remembers ⊢
  simp only
  let delaying := fun pair : OrderedJob N × PolicyDecision N => decide (pair.2.action = .delay)
  by_cases action : pair.2.action = .delay
  · rw [List.filter_cons_of_pos (show delaying pair = true from decide_eq_true action),
      List.map_cons] at remembers
    rcases applied_cases service leader.epoch tickID pair.2.toDecision attempt reservation now appliedAt
      leader.db with ⟨finished, enacted⟩ | ⟨failed, unchanged⟩
    · rw [if_pos ⟨action, finished⟩]
      obtain ⟨time, upTo, _⟩ := timely action
      rw [← same] at remembers others
      obtain ⟨new, after⟩ := remembers.delayed enacted action upTo others
      have joined : (delays ++ [Delay.mk pair.2.job decidedAt pair.2.delayUntil]).map Delay.job =
          delays.map Delay.job ++ [pair.2.job] := List.map_append
      refine ⟨distinct.2, joined ▸ after, ?_⟩
      rw [joined]
      exact List.nodup_append'.mpr ⟨single, List.nodup_singleton _,
        fun id before this => new (List.mem_singleton.mp this ▸ before)⟩
    · rw [if_neg (fun both => Bool.false_ne_true (failed.symm.trans both.2)), List.append_nil]
      refine ⟨distinct.2, ?_, single⟩
      show Remembers (call.perform service leader.db) later _
      rw [unchanged]
      exact remembers.mono fun _ member => List.mem_cons_of_mem _ member
  · rw [List.filter_cons_of_neg (show ¬ delaying pair = true from fun delays =>
      action (of_decide_eq_true delays))] at remembers
    rw [if_neg fun both => action both.1, List.append_nil]
    refine ⟨distinct.2, ?_, single⟩
    show Remembers (call.perform service leader.db) later _
    rcases applied_cases service leader.epoch tickID pair.2.toDecision attempt reservation now appliedAt
      leader.db with ⟨_, enacted⟩ | ⟨_, unchanged⟩
    · exact remembers.enacted enacted action
    · rw [unchanged]
      exact remembers

theorem Once.act (once : Once leader delays) (timed : Timed leader decidedAt delays)
    (act : LeaderAct N) (spared : act.spares service leader = true) :
    Once (act.perform service policies digest leader)
      (delays ++ act.delays service leader decidedAt) := by
  cases act with
  | request asked =>
      have after := once.remembers.requests timed.balanced spared
      exact (List.append_nil delays).symm ▸ ⟨once.distinct, after, once.single⟩
  | tryLead =>
      obtain ⟨_, ⟨allowing, _, spent⟩, single⟩ := once
      exact (List.append_nil delays).symm ▸
        ⟨List.nodup_nil, ⟨allowing, (fun _ member => by cases member), spent⟩, single⟩
  | tick limit pauses outside =>
      exact (List.append_nil delays).symm ▸ once.tick timed limit pauses outside spared
  | apply tickID attempt reservation now appliedAt =>
      cases pending : leader.pending with
      | nil => simpa [LeaderAct.perform, LeaderAct.delays, pending] using once
      | cons pair rest =>
          have applied := @Once.apply N service _ _ _ once timed _ _ pending tickID attempt
            reservation now appliedAt
          simpa only [LeaderAct.perform, pending] using applied

/-! ### A run -/

omit [Number N] in
theorem Timed.initial (now : Time) : Timed (Leader.initial N) now [] where
  balanced := Balanced.initial
  known _ member := by cases member
  applied _ member := by cases member

omit [Number N] in
theorem Once.initial : Once (Leader.initial N) [] where
  distinct := List.nodup_nil
  remembers := ⟨(fun _ _ found => by cases found), (fun _ member => by cases member),
    (fun _ member => by cases member)⟩
  single := List.nodup_nil

theorem Timed.lead (acts : List (LeaderAct N)) (timed : Timed leader decidedAt delays) :
    ∃ now, Timed (lead service policies digest acts leader) now
      (delays ++ delaysOf service policies digest acts leader decidedAt) := by
  induction acts generalizing leader decidedAt delays with
  | nil => exact ⟨decidedAt, (List.append_nil delays).symm ▸ timed⟩
  | cons act rest inductionHypothesis =>
      obtain ⟨now, after⟩ := inductionHypothesis (timed.act act)
      rw [List.append_assoc] at after
      exact ⟨now, after⟩

theorem Once.lead (acts : List (LeaderAct N)) (once : Once leader delays)
    (timed : Timed leader decidedAt delays)
    (spared : neverRequeued service policies digest acts leader = true) :
    Once (lead service policies digest acts leader)
      (delays ++ delaysOf service policies digest acts leader decidedAt) := by
  induction acts generalizing leader decidedAt delays with
  | nil => exact (List.append_nil delays).symm ▸ once
  | cons act rest inductionHypothesis =>
      obtain ⟨here, later⟩ := Bool.and_eq_true_iff.mp spared
      have after := inductionHypothesis (once.act timed act here) (timed.act act) later
      rwa [List.append_assoc] at after

/-! ### The bound -/

/-- The delays of one job, as a part of the applied ones. -/
def delaysFor (id : JobID) (delays : List Delay) : List Delay :=
  delays.filter fun delay => delay.job = id

theorem delaysFor_single {delays : List Delay} (single : (delays.map Delay.job).Nodup) (id : JobID) :
    delaysFor id delays = [] ∨ ∃ delay, delaysFor id delays = [delay] ∧ delay ∈ delays := by
  have nodup : ((delaysFor id delays).map Delay.job).Nodup :=
    (List.filter_sublist.map Delay.job).nodup single
  have own : ∀ delay ∈ delaysFor id delays, delay ∈ delays ∧ delay.job = id := fun delay member => by
    obtain ⟨listed, same⟩ := List.mem_filter.mp member
    exact ⟨listed, of_decide_eq_true same⟩
  match delaysFor id delays, nodup, own with
  | [], _, _ => exact Or.inl rfl
  | [delay], _, own => exact Or.inr ⟨delay, rfl, (own delay List.mem_cons_self).1⟩
  | one :: two :: rest, nodup, own =>
      have first := (own one List.mem_cons_self).2
      have second := (own two (List.mem_cons_of_mem _ List.mem_cons_self)).2
      refine absurd ?_ (List.nodup_cons.mp nodup).1
      rw [first, ← second]
      exact List.mem_cons_self

/-- Every delay a tick decides on is to a time after now, within the job's window and early enough for
its deadline, and so is every delay that was applied in a run. Where no attempt of a job that was
delayed ends with the job back in the queue, a job is delayed at most once, and held back by no more
than it allows. -/
theorem delays_bounded (service : Service) (policies : Policies N) (digest : Snapshot N → String)
    (acts : List (LeaderAct N)) :
    let db := (lead service policies digest acts (.initial N)).db
    let delays := delaysOf service policies digest acts (.initial N) 0
    (∀ snapshot, ∀ pair ∈ tickOutcomes policies digest snapshot, pair.2.action = .delay →
      ∃ time, pair.2.delayUntil = some time ∧ pair.1.job.Within snapshot.now time) ∧
    (∀ delay ∈ delays, ∃ job time, db.jobs.find delay.job = some job ∧
      delay.notBefore = some time ∧ job.Within delay.decidedAt time) ∧
    (neverRequeued service policies digest acts (.initial N) = true →
      ∀ id job, db.jobs.find id = some job →
        (delaysFor id delays).length ≤ 1 ∧
          ((delaysFor id delays).map Delay.held).sum ≤ job.maxDelay) := by
  intro db delays
  obtain ⟨now, timed⟩ := @Timed.lead N _ service policies digest _ 0 [] acts (Timed.initial 0)
  rw [List.nil_append] at timed
  refine ⟨fun snapshot pair member delays => (tickOutcomes_delay member delays).2, timed.applied,
    fun spared id job found => ?_⟩
  have once := Once.initial.lead acts (Timed.initial 0) spared
  rw [List.nil_append] at once
  rcases delaysFor_single once.single id with none | ⟨delay, one, member⟩
  · have none : delaysFor id delays = [] := none
    rw [none]
    exact ⟨Nat.zero_le 1, once.remembers.allowing id job found⟩
  · have one : delaysFor id delays = [delay] := one
    rw [one]
    refine ⟨le_refl 1, ?_⟩
    obtain ⟨row, time, hasRow, upTo, within⟩ := timed.applied delay member
    have own : delay.job = id := by
      have listed : delay ∈ delaysFor id delays := one ▸ List.mem_cons_self
      exact of_decide_eq_true (List.mem_filter.mp listed).2
    rw [own] at hasRow
    cases found.symm.trans hasRow
    have held : delay.held = time - delay.decidedAt := by
      unfold Delay.held
      rw [upTo]
      rfl
    rw [List.map_singleton, List.sum_singleton, held]
    exact sub_le_iff_le_add'.mpr within.window

end

/-! ### A job that waits for cleaner power -/

/-- A policy that delays for power that is cleaner by a tenth. -/
def greenPolicy : Policies Rat where
  named _ := none
  default :=
    { fifoPolicy with
      version := "carbon@v1", weights := { fit := 1, cost := 0, carbon := 1, deadline := 0 }
      allowDelay := true, delayMinImprovement := 1 / 10, carbonMaxAge := hour, fallback := .cost }

/-- What a tick reads where the power is to be cleaner after three quarters of an hour. -/
def cleanerSoon (now : Time) : Outside Rat where
  now := now
  tenantUsage := []
  pue _ := 1
  carbon _ :=
    { current := some { time := now, gramsPerKWh := 400, source := "grid" }
      forecast := [{ time := now + 45 * minute, high := 100 }], forecastModel := "persistence" }

/-- A job that allows a delay of an hour is delayed, and placed when the time has come. -/
def delayedRun : List (LeaderAct Rat) :=
  let member : Principal :=
    { kind := .user, user := "user", tenant := "tenant", role := .member, worker := "", pool := "" }
  let quiet : Pauses :=
    { afterJobs := [], afterWorkers := [], afterPools := [], afterRunning := [], afterActive := []
      afterMax := [] }
  [.request (.createTenant "tenant" "project" 10000000 0 2),
    .request (.upsertPool dollarPool),
    .request (.register { member with kind := .bootstrap, pool := "pool" } "worker"
      { gpuModel := "a100", gpus := 1, gpuMemGB := 80, runtimes := ["sim"], region := "" }
      "worker" 0),
    .request (.submit member { cappedRequest 0 with maxDelay := hour } "request" "job" 0 0),
    .tryLead,
    .tick 500 quiet (cleanerSoon 0), .apply "tick" "attempt" "reservation" 0 0,
    .tick 500 quiet (cleanerSoon (45 * minute)), .apply "tock" "attempt" "reservation" 0 0]

/-- No worker claims the job; its attempt is closed as lost, and the next tick delays it again. -/
def lostRun : List (LeaderAct Rat) :=
  let stale : Reservation :=
    { id := "reservation", job := "job", attempt := "attempt", worker := "worker", pool := "pool"
      gpus := 1, priceRate := 1000000, holdAmount := 1000000, epoch := 1, createdAt := 0
      releasedAt := none, releaseReason := none }
  let quiet : Pauses :=
    { afterJobs := [], afterWorkers := [], afterPools := [], afterRunning := [], afterActive := []
      afterMax := [] }
  delayedRun ++
    [.request (.reclaimStale stale (50 * minute) (50 * minute)),
      .tick 500 quiet (cleanerSoon (50 * minute)), .apply "third" "second" "another" 0 0]

/-- The job that is placed was delayed once, by no more than an hour. -/
theorem delays_bounded_placed :
    let delays := delaysOf plainService greenPolicy (fun _ => "") delayedRun (.initial Rat) 0
    ∃ job ∈ (lead plainService greenPolicy (fun _ => "") delayedRun (.initial Rat)).db.jobs.find "job",
      (delaysFor "job" delays).length ≤ 1 ∧
        ((delaysFor "job" delays).map Delay.held).sum ≤ job.maxDelay := by
  have row : ((lead plainService greenPolicy (fun _ => "") delayedRun (.initial Rat)).db.jobs.find
      "job").isSome = true := by
    decide +kernel
  obtain ⟨job, found⟩ := Option.isSome_iff_exists.mp row
  exact ⟨job, found, (delays_bounded plainService greenPolicy (fun _ => "") delayedRun).2.2
    (by decide +kernel) "job" job found⟩

example : delaysOf plainService greenPolicy (fun _ => "") delayedRun (.initial Rat) 0 =
    [⟨"job", 0, some (45 * minute)⟩] := by
  decide +kernel

/-- The job that loses its attempt is delayed twice, and held back for an hour and a half of the hour
it allows. -/
theorem delayed_twice :
    let delays := delaysOf plainService greenPolicy (fun _ => "") lostRun (.initial Rat) 0
    ∃ job ∈ (lead plainService greenPolicy (fun _ => "") lostRun (.initial Rat)).db.jobs.find "job",
      job.maxDelay = hour ∧ (delaysFor "job" delays).length = 2 ∧
        ((delaysFor "job" delays).map Delay.held).sum = 90 * minute := by
  decide +kernel

end GpuBroker.ControlPlane
