/-
This file is a tick that a backend ends.

What a backend raises where it is polled, where it is to stop a machine, or
where it is asked for room, nothing catches. What the tick did before is what it
does when the jobs that run on the backend are absent; what stands behind the
call that failed, it leaves.
-/
import GpuBroker.Broker.Turns

namespace GpuBroker.Broker

open Library

variable {σ γ α : Type}

/-! ### The parts of a tick -/

/-- What the looks of a tick at the running jobs come to. -/
def Site.looked (site : Site γ) (world : World γ) : Except BrokerError TickReport × World γ :=
  (world.db.activeJobs.foldlM (advanceOne site (world.clock world.asked)) {}).whole world.ticked

/-- A turn of the walk of the queue that a tick makes. -/
def Site.turn (site : Site γ) (world : World γ) : Pass × TickReport → Job → Op γ (Pass × TickReport) :=
  decideOne ⟨site, world.config.maxRunningJobsPerUser, world.db.suspendedUsers, dispatchOne⟩

/-- The world after the looks of a tick and a dispatch that passes over the backends that raise. -/
def Site.passing (site : Site γ) (world : World γ) : World γ :=
  let looked := site.looked world
  ((dispatch site.guarded (world.clock world.asked) (looked.1.toOption.getD {})).whole looked.2).2

variable {site : Site γ} {world : World γ} {now : Time} {report : TickReport}

theorem mem_queue (site : Site γ) (now : Time) {db : Db} {job : Job} :
    job ∈ site.queue now db ↔ job ∈ db.queuedJobs :=
  (List.mergeSort_perm _ _).mem_iff

/-! ### The queue -/

/-- A list of rows of the table has each job once. -/
theorem listed_apart {db : Db} {which : Job → Bool} {before behind : List Job}
    (listed : (before ++ behind).Perm (db.jobs.rows.filter which)) :
    ∀ one ∈ before, ∀ other ∈ behind, other.jobId ≠ one.jobId := by
  have distinct : ((before ++ behind).map Job.jobId).Nodup :=
    (listed.map Job.jobId).nodup_iff.mpr (db.jobs.distinct.sublist (List.filter_sublist.map Job.jobId))
  rw [List.map_append] at distinct
  intro one first other second same
  exact (List.nodup_append.mp distinct).2.2 _ (List.mem_map_of_mem first) _
    (List.mem_map_of_mem second) same.symm

/-- A job was sent to a backend other than one: its record is allocating there. -/
def SentElsewhere (down : String) (id : JobId) (world : World γ) : Prop :=
  ∃ row ∈ world.db.jobs.find id, row.state = .allocating ∧ row.backend.getD "" ≠ down

theorem SentElsewhere.congr {down : String} {id : JobId} {one other : World γ}
    (same : one.db.jobs.find id = other.db.jobs.find id) :
    SentElsewhere down id one ↔ SentElsewhere down id other := by
  unfold SentElsewhere
  rw [same]

/-- The jobs that run on a provider, gone from a world. -/
def Absence.of (down : String) (world : World (Providers σ)) : Absence σ where
  down
  gone := fun id => (world.db.jobs.find id).any fun row => row.state.active && row.backend.getD "" = down
  start := world.cloud

/-- No provider but one raises where it is polled or where it is to stop a machine. -/
structure Brokerage.Steady (brokerage : Brokerage σ) (down : String) : Prop where
  polls : ∀ other ∈ brokerage.backends, other.name ≠ down →
    ∀ handle capacity detail, (other.poll handle capacity).1 ≠ .error detail
  stops : ∀ other ∈ brokerage.backends, other.name ≠ down →
    ∀ handle reason capacity detail, (other.terminate handle reason capacity).1 ≠ .error detail

/-- The running jobs that the looks of a tick leave, the one they stop at included. -/
def Site.unlooked (site : Site γ) (world : World γ) : List Job :=
  Program.stalled (advanceOne site (world.clock world.asked)) world.db.activeJobs {} world.ticked

/-- A look that raises in the report raises. -/
theorem advanceOne_error {job : Job} {next : World γ} {error : BrokerError}
    (raised : (advanceOne site now report job).whole world = (.error error, next)) :
    (advance site job now).whole world = (.error error, next) := by
  unfold advanceOne at raised
  rw [Program.whole_bind] at raised
  cases came : (advance site job now).whole world with
  | mk answer last =>
      rw [came] at raised
      cases answer with
      | ok outcome => cases raised
      | error other =>
          cases raised
          rfl

section Running

variable {brokerage : Brokerage σ} {down : String} {world : World (Providers σ)} {job : Job}

theorem Absence.sited_of : (Absence.of down world).Sited world := by
  intro row member hidden
  have gone : (world.db.jobs.find row.jobId).any (fun row =>
      row.state.active && row.backend.getD "" = down) = true := hidden
  rw [Table.find_of_mem member, Option.any_some, Bool.and_eq_true] at gone
  exact of_decide_eq_true gone.2

theorem Absence.gone_of (active : job ∈ world.db.activeJobs) :
    (Absence.of down world).gone job.jobId = decide (job.backend.getD "" = down) := by
  obtain ⟨found, live⟩ := Db.find_of_listJobs active
  show (world.db.jobs.find job.jobId).any _ = _
  rw [found, Option.any_some, live, Bool.true_and]

theorem Absence.spares_of (active : job ∈ world.db.activeJobs) (other : job.backend.getD "" ≠ down) :
    (Absence.of down world).Spares job :=
  ⟨(Absence.gone_of active).trans (decide_eq_false other), other⟩

/-- Looks at running jobs that raise nothing are what they are without the jobs of a provider. -/
theorem paced_looks (steady : brokerage.Steady down) {jobs : List Job} {report last : TickReport}
    {there : World (Providers σ)} (active : ∀ job ∈ jobs, job ∈ world.db.activeJobs)
    (ended : (jobs.foldlM (advanceOne brokerage.site now) report).whole world.ticked = (.ok last, there)) :
    (Absence.of down world).Sited there ∧
      Program.Paced Waits (fun job => advance brokerage.site job now)
        (jobs.filter fun job => job.backend.getD "" ≠ down)
        ((Absence.of down world).veil world) ((Absence.of down world).veil there) := by
  have started : (Absence.of down world).Sited world.ticked := Absence.sited_of
  have blind : ∀ job ∈ jobs, decide (job.backend.getD "" ≠ down) = true →
      (advance brokerage.site job now).Blind (Absence.of down world).veil (Absence.of down world).Sited
        BrokerError.ours fun _ => True := fun job member shown =>
    Absence.blind_advance (Absence.spares_of (active job member) (of_decide_eq_true shown)) steady.polls
      steady.stops
  have hides : ∀ job ∈ jobs, decide (job.backend.getD "" ≠ down) = false → ∀ current,
      (Absence.of down world).Hides current ((advance brokerage.site job now).whole current).2 := by
    intro job member hidden current
    have here : job.backend.getD "" = down := not_not.mp (of_decide_eq_false hidden)
    exact Absence.hides_advance ((Absence.gone_of (active job member)).trans (decide_eq_true here)) here current
  obtain ⟨sited, paced⟩ := Program.paced_of_foldlM Waits (fun job => decide (job.backend.getD "" ≠ down))
    Waits.trans Waits.refl blind hides started ended
  exact ⟨sited, paced.wait Waits.trans ⟨1, rfl⟩⟩

variable {next there : World (Providers σ)} {report : TickReport} {detail : String} {done rest : List Job}

/-- The looks of a tick stop at a job. -/
abbrev StopsAt (brokerage : Brokerage σ) (world next : World (Providers σ)) (detail : String)
    (done : List Job) (job : Job) (rest : List Job) (report : TickReport) (there : World (Providers σ)) :
    Prop :=
  Program.Stalls (advanceOne brokerage.site (world.clock world.asked)) world.db.activeJobs {} world.ticked
    (.backend detail) next done job rest report there

theorem StopsAt.member (stops : StopsAt brokerage world next detail done job rest report there) :
    ∀ other ∈ done ++ job :: rest, other ∈ world.db.activeJobs := fun other member => by
  rw [stops.split]
  exact member

/-- The job the looks stop at runs on the provider that fails. -/
theorem StopsAt.sited (steady : brokerage.Steady down)
    (stops : StopsAt brokerage world next detail done job rest report there) :
    job.backend.getD "" = down := by
  by_contra other
  have active := stops.member job (List.mem_append_right _ List.mem_cons_self)
  have kept := (paced_looks steady (fun other member => stops.member other (List.mem_append_left _ member))
    stops.ran).1
  have blind : (advance brokerage.site job (world.clock world.asked)).Blind (Absence.of down world).veil
      (Absence.of down world).Sited BrokerError.ours fun _ => True :=
    Absence.blind_advance (Absence.spares_of active other) steady.polls steady.stops
  exact (blind there kept).error (.backend detail) (congrArg Prod.fst (advanceOne_error stops.raised)) detail rfl

/-- Looks that stop are up to there what they are without the jobs of the provider that fails. -/
theorem StopsAt.paced (steady : brokerage.Steady down)
    (stops : StopsAt brokerage world next detail done job rest report there) :
    Program.Paced Waits (fun job => advance brokerage.site job (world.clock world.asked))
      (done.filter fun job => job.backend.getD "" ≠ down)
      ((Absence.of down world).veil world) ((Absence.of down world).veil next) := by
  have active := stops.member job (List.mem_append_right _ List.mem_cons_self)
  have here := stops.sited steady
  obtain ⟨kept, paced⟩ := paced_looks steady
    (fun other member => stops.member other (List.mem_append_left _ member)) stops.ran
  have hides : (Absence.of down world).Hides there
      ((advance brokerage.site job (world.clock world.asked)).whole there).2 :=
    Absence.hides_advance ((Absence.gone_of active).trans (decide_eq_true here)) here there
  rw [advanceOne_error stops.raised] at hides
  have concluded : Program.Paced Waits (fun job => advance brokerage.site job (world.clock world.asked)) []
      ((Absence.of down world).veil there) ((Absence.of down world).veil next) := .concluded (hides kept).2
  have both := paced.append concluded Waits.trans
  rwa [List.append_nil] at both

/-- Looks that stop ask about the machine of a job that is left as often as before. -/
theorem StopsAt.asked (steady : brokerage.Steady down) (unshared : world.db.Unshared)
    (stops : StopsAt brokerage world next detail done job rest report there) {other : Job} {handle : String}
    (member : other ∈ rest) (named : other.backend.getD "" ≠ "") (placed : other.backendHandle = some handle)
    (elsewhere : other.backend.getD "" ≠ down) :
    world.cloud.asked (other.backend.getD "") handle = next.cloud.asked (other.backend.getD "") handle := by
  have apart := listed_apart (stops.split ▸ world.db.listJobs_perm _ :
    (done ++ job :: rest).Perm (world.db.jobs.rows.filter fun job => job.state.active))
  obtain ⟨found, _⟩ := Db.find_of_listJobs
    (stops.member other (List.mem_append_right _ (List.mem_cons_of_mem _ member)))
  -- a job that was looked at is on another machine, or it would be the one that is left
  have machines : ∀ before ∈ done, before.backend.getD "" = other.backend.getD "" →
      before.backendHandle ≠ some handle := by
    intro before earlier same shared
    obtain ⟨has, _⟩ := Db.find_of_listJobs (stops.member before (List.mem_append_left _ earlier))
    have backend : ∀ named : Option String, named.getD "" = other.backend.getD "" →
        named = some (other.backend.getD "") := by
      rintro (_ | name) same
      · exact (named same.symm).elim
      · exact congrArg some same
    have its := backend other.backend rfl
    refine apart before earlier other (List.mem_cons_of_mem _ member) (unshared _ _ other before found has ?_ ?_
      ((backend before.backend same).trans its.symm) (shared.trans placed.symm))
    · rw [its]
      rfl
    · rw [placed]
      rfl
  let still := (hearing (σ := σ) (other.backend.getD "") handle (· = ·) fun _ => rfl).regime
  have each : ∀ before ∈ done, ∀ report,
      still.Yields (advanceOne brokerage.site (world.clock world.asked) report before) fun _ => True :=
    fun before earlier report =>
      still.bind (asked_advance_same (machines before earlier)) fun _ _ => yields_pure trivial
  have looks : still.Yields (done.foldlM (advanceOne brokerage.site (world.clock world.asked)) {}) fun _ => True :=
    yields_foldlM each {}
  have look : still.Yields (advance brokerage.site job (world.clock world.asked)) fun _ => True :=
    asked_advance_same fun same => (elsewhere (same.symm.trans (stops.sited steady))).elim
  have first := (asked_whole (looks world.ticked) fun _ _ _ => Eq.trans).1
  have second := (asked_whole (look there) fun _ _ _ => Eq.trans).1
  rw [stops.ran] at first
  rw [advanceOne_error stops.raised] at second
  exact first.trans second

end Running

/-- No two records of a run name one machine. -/
theorem Desk.unshared (desk : Desk γ) (entries : List (Operation × Nat)) (config : BrokerConfig) (cloud : γ)
    (clock : Nat → Time) : (desk.after entries (World.new config cloud clock)).db.Unshared := by
  let alone : World γ → Prop := fun world => world.db.Unshared
  have kept : Booked (desk.after entries (World.new config cloud clock)) ∧
      alone (desk.after entries (World.new config cloud clock)) := by
    refine Desk.keeps (runs_unknown desk.site) (Booked.new config cloud clock)
      (desk.allows_anything entries _) (fun _ _ _ _ found => nomatch found) ?_ ?_
    · intro before after _ quiet _ unshared
      show after.db.Unshared
      rw [quiet.db]
      exact unshared
    · exact fun write before after _ _ sound _ _ applied unshared => unshared.apply sound applied
  exact kept.2

/-- A provider of one machine, which may be out of reach where it is asked for room or polled. -/
def Backend.single (name : String) (counts polls : Bool) : Backend Nat where
  name := name
  currency := .usd
  tier := some "spot"
  supports _ := true
  freeSlots _ launches := (if counts then .ok (1 - launches) else .error "out of reach", launches)
  launch _ launches := (.ok ⟨"only", "t4"⟩, launches + 1)
  start _ _ launches := (.ok (), launches)
  poll _ launches := (if polls then .ok ⟨.running, none, none⟩ else .error "out of reach", launches)
  fetchLogs _ _ launches := (.ok [], launches)
  sampleUtilization _ launches := (.ok [], launches)
  terminate _ _ launches := (.ok (), launches)

/-- A broker with two such providers, one of which can always be reached. -/
def Brokerage.pair (counts polls : Bool) : Brokerage Nat where
  backends := [.single "east" counts polls, .single "west" true true]
  latest := none
  score := fun _ _ _ => 0
  evidence := fun _ => ""
  text := fun _ => "refused"
  named := by
    intro backend member
    rcases List.mem_pair.mp member with rfl | rfl
    · exact (by decide +kernel : "east" ≠ "")
    · exact (by decide +kernel : "west" ≠ "")

/-- The providers before the first launch. -/
def Providers.fresh : Providers Nat := ⟨fun _ => ⟨0, []⟩, fun _ => 0⟩

/-- Ann joins and asks for four hours, and a number of passes follow. -/
abbrev Brokerage.paired (counts polls : Bool) (passes : Nat) : World (Providers Nat) :=
  (Brokerage.pair counts polls).desk.after (Operation.opening ++ Operation.ticks passes)
    (World.new .club .fresh fun reading => reading * twelveMinutes)

deriving instance DecidableEq for TickReport

instance (down : String) (id : JobId) (world : World γ) : Decidable (SentElsewhere down id world) :=
  inferInstanceAs (Decidable (∃ row ∈ world.db.jobs.find id,
    row.state = .allocating ∧ row.backend.getD "" ≠ down))

end GpuBroker.Broker
