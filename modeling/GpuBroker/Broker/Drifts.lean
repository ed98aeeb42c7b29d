/-
This file is reconciliation: what every backend holds, compared with what the
store has on record, and each disagreement reported.

A machine is known by the backend it is on and its handle there. What is held
without the tag of a job is untagged, what is held for a job but is no active
job's machine is an orphan, and an active job whose machine no backend lists is
lost; there is nothing else to report, and none of these goes unreported.
-/
import GpuBroker.Broker.Ec2
import GpuBroker.Broker.Operations
import GpuBroker.Broker.Passes
import GpuBroker.Broker.Runs

namespace GpuBroker.Broker

open Library

variable {γ : Type}

/-! ### Drifts -/

inductive DriftKind where
  | untagged
  | orphan
  | lost
  deriving DecidableEq

/-- One disagreement between what the broker recorded and what a backend has. -/
structure Drift where
  kind : DriftKind
  backend : String
  handle : String
  jobId : Option JobId
  detail : String
  deriving DecidableEq

/-- The job that a resource is tagged with. -/
def Resource.jobId (resource : Resource) : Option JobId := resource.tags.lookup tagJobId

/-- The member that a resource is tagged with. -/
def Resource.userId (resource : Resource) : Option UserId := resource.tags.lookup tagUser

def Drift.untagged (backend : String) (resource : Resource) : Drift :=
  { kind := .untagged, backend, handle := resource.handle, jobId := none,
    detail := "holding capacity with no broker-job-id tag. The broker did not create this, " ++
      "or created it and died before tagging." }

def Drift.orphan (backend : String) (resource : Resource) (job : JobId) (known : String) : Drift :=
  { kind := .orphan, backend, handle := resource.handle, jobId := some job,
    detail := "backend is holding this for " ++ resource.userId.getD "None" ++ ", but our record says " ++ known ++
      ". Nothing will clean it up." }

/-- What is said of a job whose machine is gone; the machine is the one it is filed under. -/
def Drift.lost (machine : Option String × Option String) (job : Job) : Drift :=
  { kind := .lost, backend := (truthy machine.1).getD "?", handle := (truthy machine.2).getD "?",
    jobId := some job.jobId,
    detail := "we record this job as " ++ job.state.text ++ " on " ++ machine.1.getD "None" ++
      ", but the backend has no such resource. It may have been terminated outside the broker." }

/-! ### Reconciliation -/

/-- The machine on a job's record. -/
def Job.machine (job : Job) : Option String × Option String := (job.backend, job.backendHandle)

/-- File a job under a key, in the place of the one under it or as the last. -/
def fileUnder (key : Option String × Option String) (job : Job) :
    List ((Option String × Option String) × Job) → List ((Option String × Option String) × Job)
  | [] => [(key, job)]
  | entry :: rest => if entry.1 = key then (key, job) :: rest else entry :: fileUnder key job rest

/-- Jobs with a handle, filed under their machines. -/
def byMachine (jobs : List Job) : List ((Option String × Option String) × Job) :=
  (jobs.filter fun job => (truthy job.backendHandle).isSome).foldl
    (fun filed job => fileUnder job.machine job filed) []

/-- What the store says of a job. -/
def Db.knownState (db : Db) (job : JobId) : String :=
  match db.jobs.find job with
  | some row => row.state.text
  | none => "no job record at all"

/-- What has been found on the way, and where. -/
structure Findings where
  drifts : List Drift := []
  seen : List (Option String × Option String) := []

/-- Look at one resource of a backend. -/
def inspect (ours : List ((Option String × Option String) × Job)) (backend : Backend γ) (findings : Findings)
    (resource : Resource) : Op γ Findings := do
  let key := (some backend.name, some resource.handle)
  let findings := { findings with seen := findings.seen ++ [key] }
  match resource.jobId with
  | none => pure { findings with drifts := findings.drifts ++ [.untagged backend.name resource] }
  | some id =>
      match ours.lookup key with
      | some _ => pure findings
      | none => do
          let known ← query fun db => db.knownState id
          pure { findings with drifts := findings.drifts ++ [.orphan backend.name resource id known] }

/-- Compare every backend with the records. -/
def reconcile (site : Site γ) (listResources : Backend γ → γ → Except String (List Resource) × γ) :
    Op γ (List Drift) := do
  let active ← query Db.activeJobs
  let ours := byMachine active
  let findings ← site.backends.foldlM (fun findings backend => do
    let resources ← externally (listResources backend)
    resources.foldlM (inspect ours backend) findings) {}
  let missing := ours.filter fun entry => entry.1 ∉ findings.seen
  pure (findings.drifts ++ missing.map fun entry => .lost entry.1 entry.2)

/-! ### What is filed -/

theorem fileUnder_fresh {key : Option String × Option String} {job : Job}
    {filed : List ((Option String × Option String) × Job)} (fresh : key ∉ filed.map Prod.fst) :
    fileUnder key job filed = filed ++ [(key, job)] := by
  induction filed with
  | nil => rfl
  | cons entry rest shorter =>
      rw [List.map_cons, List.mem_cons, not_or] at fresh
      rw [fileUnder, if_neg fun same => fresh.1 same.symm, shorter fresh.2, List.cons_append]

/-- Jobs of machines of their own are filed one by one. -/
theorem byMachine_eq {jobs : List Job} (handled : ∀ job ∈ jobs, (truthy job.backendHandle).isSome)
    (apart : (jobs.map Job.machine).Nodup) : byMachine jobs = jobs.map fun job => (job.machine, job) := by
  have onward : ∀ (rest : List Job) (filed : List ((Option String × Option String) × Job)),
      (filed.map Prod.fst ++ rest.map Job.machine).Nodup →
        rest.foldl (fun filed job => fileUnder job.machine job filed) filed =
          filed ++ rest.map fun job => (job.machine, job) := by
    intro rest
    induction rest with
    | nil => exact fun filed _ => (List.append_nil filed).symm
    | cons job rest shorter =>
        intro filed distinct
        rw [List.map_cons] at distinct
        have fresh : job.machine ∉ filed.map Prod.fst := fun member =>
          (List.nodup_append.mp distinct).2.2 _ member _ List.mem_cons_self rfl
        rw [List.foldl_cons, fileUnder_fresh fresh, shorter, List.append_assoc, List.singleton_append, List.map_cons]
        rwa [List.map_append, List.map_singleton, List.append_assoc, List.singleton_append]
  unfold byMachine
  rw [List.filter_eq_self.mpr handled, onward jobs [] (by simpa using apart), List.nil_append]

/-! ### A run of it -/

/-- A resource on a backend. -/
structure HeldResource where
  backend : String
  resource : Resource

/-- Where a resource is. -/
def HeldResource.place (holding : HeldResource) : Option String × Option String :=
  (some holding.backend, some holding.resource.handle)

/-- What a list of backends lists, each asked after the one before, until one of them fails. -/
def listings (listResources : Backend γ → γ → Except String (List Resource) × γ) :
    List (Backend γ) → γ → Except String (List HeldResource) × γ
  | [], cloud => (.ok [], cloud)
  | backend :: rest, cloud =>
      match listResources backend cloud with
      | (.error detail, cloud) => (.error detail, cloud)
      | (.ok resources, cloud) =>
          match listings listResources rest cloud with
          | (.error detail, cloud) => (.error detail, cloud)
          | (.ok more, cloud) => (.ok (resources.map (fun resource => ⟨backend.name, resource⟩) ++ more), cloud)

/-- What is reported of a resource. -/
def HeldResource.drift (db : Db) (ours : List ((Option String × Option String) × Job)) (holding : HeldResource) :
    Option Drift :=
  match holding.resource.jobId with
  | none => some (.untagged holding.backend holding.resource)
  | some id =>
      match ours.lookup holding.place with
      | some _ => none
      | none => some (.orphan holding.backend holding.resource id (db.knownState id))

/-- Findings with those of more resources. -/
def Findings.add (findings : Findings) (db : Db) (ours : List ((Option String × Option String) × Job))
    (holdings : List HeldResource) : Findings :=
  { drifts := findings.drifts ++ holdings.filterMap (HeldResource.drift db ours)
    seen := findings.seen ++ holdings.map HeldResource.place }

theorem whole_inspect (ours : List ((Option String × Option String) × Job)) (backend : Backend γ)
    (findings : Findings) (resource : Resource) (world : World γ) :
    (inspect ours backend findings resource).whole world =
      (.ok (findings.add world.db ours [⟨backend.name, resource⟩]), world) := by
  unfold inspect Findings.add HeldResource.drift HeldResource.place
  cases tagged : resource.jobId with
  | none =>
      simp only [tagged, List.filterMap_cons, List.filterMap_nil, List.map_cons, List.map_nil]
      rfl
  | some id =>
      cases known : ours.lookup (some backend.name, some resource.handle) with
      | some job =>
          simp only [tagged, known, List.filterMap_cons, List.filterMap_nil, List.map_cons, List.map_nil,
            List.append_nil]
          rfl
      | none =>
          simp only [tagged, known, List.filterMap_cons, List.filterMap_nil, List.map_cons, List.map_nil]
          exact whole_query

theorem Findings.add_nil (findings : Findings) (db : Db) (ours : List ((Option String × Option String) × Job)) :
    findings.add db ours [] = findings := by
  unfold Findings.add
  rw [List.filterMap_nil, List.map_nil, List.append_nil, List.append_nil]

theorem Findings.add_add (findings : Findings) (db : Db) (ours : List ((Option String × Option String) × Job))
    (first second : List HeldResource) :
    (findings.add db ours first).add db ours second = findings.add db ours (first ++ second) := by
  unfold Findings.add
  rw [List.filterMap_append, List.map_append, List.append_assoc, List.append_assoc]

/-- The resources of one backend are looked at one after another. -/
theorem whole_resources (ours : List ((Option String × Option String) × Job)) (backend : Backend γ)
    (findings : Findings) (resources : List Resource) (world : World γ) :
    (resources.foldlM (inspect ours backend) findings).whole world =
      (.ok (findings.add world.db ours (resources.map fun resource => ⟨backend.name, resource⟩)), world) := by
  induction resources generalizing findings with
  | nil =>
      rw [List.map_nil, Findings.add_nil]
      rfl
  | cons resource rest shorter =>
      rw [List.foldlM_cons, Program.whole_bind_ok (whole_inspect ours backend findings resource world), shorter,
        Findings.add_add]
      rfl

/-- The backends are asked one after another, until one of them fails. -/
theorem whole_backends (listResources : Backend γ → γ → Except String (List Resource) × γ)
    (ours : List ((Option String × Option String) × Job)) (backends : List (Backend γ)) (findings : Findings)
    (world : World γ) {answer : Except String (List HeldResource)} {last : γ}
    (listed : listings listResources backends world.cloud = (answer, last)) :
    (backends.foldlM (fun findings backend => do
        let resources ← externally (listResources backend)
        resources.foldlM (inspect ours backend) findings) findings : Op γ Findings).whole world =
      ((answer.map (findings.add world.db ours)).mapError BrokerError.backend, world.called last) := by
  induction backends generalizing findings world answer last with
  | nil =>
      cases listed
      show (Except.ok findings, world) = (Except.ok (findings.add world.db ours []), world)
      rw [Findings.add_nil]
  | cons backend rest shorter =>
      rw [List.foldlM_cons, bind_assoc, externally_bind, whole_external]
      unfold listings at listed
      rcases call : listResources backend world.cloud with ⟨came, cloud⟩
      rw [call] at listed
      cases came with
      | error detail =>
          cases listed
          rfl
      | ok resources =>
          have looked := whole_resources ours backend findings resources (world.called cloud)
          show ((resources.foldlM (inspect ours backend) findings) >>= _).whole _ = _
          rw [Program.whole_bind_ok looked]
          rcases further : listings listResources rest cloud with ⟨later, after⟩
          simp only [further] at listed
          refine (shorter (findings.add world.db ours _) (world.called cloud) further).trans ?_
          cases later with
          | error detail =>
              cases listed
              rfl
          | ok more =>
              cases listed
              exact congrArg (fun all => (Except.ok all, world.called last)) (Findings.add_add _ _ _ _ more)

/-- What reconciling reports when every backend answers: for each resource what there is to say of it, and each
job whose machine was not seen. -/
theorem whole_reconcile (site : Site γ) (listResources : Backend γ → γ → Except String (List Resource) × γ)
    (world : World γ) {found : List HeldResource} {cloud : γ}
    (listed : listings listResources site.backends world.cloud = (.ok found, cloud)) :
    (reconcile site listResources).whole world =
      (.ok (found.filterMap (HeldResource.drift world.db (byMachine world.db.activeJobs)) ++
        ((byMachine world.db.activeJobs).filter fun entry => entry.1 ∉ found.map HeldResource.place).map
          fun entry => .lost entry.1 entry.2),
        world.called cloud) := by
  unfold reconcile
  rw [whole_query]
  have looked := whole_backends listResources (byMachine world.db.activeJobs) site.backends {} world listed
  rw [Program.whole_bind_ok looked]
  rfl

/-! ### Exactness -/

/-- The invariant of the records: exactly the active jobs have a handle, and, as the unique index on handles has
it, a machine belongs to one of them. -/
structure Recorded (db : Db) : Prop where
  handled : ∀ id job, db.jobs.find id = some job → ((truthy job.backendHandle).isSome ↔ job.state.active)
  apart : ∀ one other first second, db.jobs.find one = some first → db.jobs.find other = some second →
    first.state.active → second.state.active → first.machine = second.machine → one = other

theorem Recorded.nodup {db : Db} (recorded : Recorded db) : (db.activeJobs.map Job.machine).Nodup := by
  refine List.Nodup.map_on ?_ ?_
  · intro one first other second same
    obtain ⟨found, active⟩ := Db.find_of_listJobs first
    obtain ⟨found', active'⟩ := Db.find_of_listJobs second
    have ids := recorded.apart _ _ one other found found' active active' same
    rw [ids, found'] at found
    exact (Option.some.inj found).symm
  · refine (db.listJobs_perm _).nodup_iff.mpr (List.Nodup.filter _ ?_)
    exact List.Nodup.of_map _ db.jobs.distinct

/-- What an active job's machine is filed under. -/
theorem Recorded.byMachine_eq {db : Db} (recorded : Recorded db) :
    byMachine db.activeJobs = db.activeJobs.map fun job => (job.machine, job) := by
  refine GpuBroker.Broker.byMachine_eq (fun job listed => ?_) recorded.nodup
  obtain ⟨found, active⟩ := Db.find_of_listJobs listed
  exact (recorded.handled _ job found).mpr active

/-- Where the active jobs' machines are. -/
def Db.machines (db : Db) : List (Option String × Option String) := db.activeJobs.map Job.machine

/-- What is held and what is on record, compared without a machine missed or a machine said twice. -/
structure ReportsExactly (db : Db) (found : List HeldResource) (drifts : List Drift) : Prop where
  untagged : drifts.filter (fun drift => drift.kind = .untagged) =
    (found.filter fun held => held.resource.jobId = none).map fun held => .untagged held.backend held.resource
  orphans : drifts.filter (fun drift => drift.kind = .orphan) =
    (found.filter fun held => held.place ∉ db.machines).filterMap fun held =>
      held.resource.jobId.map fun id => .orphan held.backend held.resource id (db.knownState id)
  lost : drifts.filter (fun drift => drift.kind = .lost) =
    (db.activeJobs.filter fun job => job.machine ∉ found.map HeldResource.place).map fun job =>
      .lost job.machine job
  nothing : drifts = [] ↔ (∀ held ∈ found, held.resource.jobId.isSome) ∧
    ∀ place, place ∈ found.map HeldResource.place ↔ place ∈ db.machines

/-- What there is to say of a resource, where the active jobs' machines are filed one by one. -/
theorem drift_eq (db : Db) (held : HeldResource) :
    held.drift db (db.activeJobs.map fun job => (job.machine, job)) =
      match held.resource.jobId with
      | none => some (.untagged held.backend held.resource)
      | some id =>
          if held.place ∈ db.machines then none
          else some (.orphan held.backend held.resource id (db.knownState id)) := by
  unfold HeldResource.drift
  cases held.resource.jobId with
  | none => rfl
  | some id =>
      cases known : (db.activeJobs.map fun job => (job.machine, job)).lookup held.place with
      | some job =>
          obtain ⟨before, after, split, _⟩ := List.lookup_eq_some_iff.mp known
          have member : (held.place, job) ∈ db.activeJobs.map fun job => (job.machine, job) :=
            split ▸ List.mem_append_right _ List.mem_cons_self
          obtain ⟨other, listed, same⟩ := List.mem_map.mp member
          have here : held.place ∈ db.machines := List.mem_map.mpr ⟨other, listed, (Prod.mk.inj same).1⟩
          simp only [if_pos here]
      | none =>
          have apart : held.place ∉ db.machines := by
            intro here
            obtain ⟨job, listed, same⟩ := List.mem_map.mp here
            have differs := List.lookup_eq_none_iff.mp known _ (List.mem_map.mpr ⟨job, listed, rfl⟩)
            simp [same] at differs
          simp only [if_neg apart]

/-- The untagged resources, among what is said of resources. -/
theorem untagged_drifts (db : Db) (found : List HeldResource) :
    (found.filterMap (HeldResource.drift db (db.activeJobs.map fun job => (job.machine, job)))).filter
        (fun drift => drift.kind = .untagged) =
      (found.filter fun held => held.resource.jobId = none).map fun held =>
        .untagged held.backend held.resource := by
  induction found with
  | nil => rfl
  | cons held rest shorter =>
      rw [List.filterMap_cons, drift_eq, List.filter_cons]
      cases tagged : held.resource.jobId with
      | none => simpa [Drift.untagged] using shorter
      | some id =>
          by_cases here : held.place ∈ db.machines
          · simpa [here] using shorter
          · simpa [here, Drift.orphan] using shorter

/-- The resources tagged with a job, of which no active job's record tells, among what is said of resources. -/
theorem orphan_drifts (db : Db) (found : List HeldResource) :
    (found.filterMap (HeldResource.drift db (db.activeJobs.map fun job => (job.machine, job)))).filter
        (fun drift => drift.kind = .orphan) =
      (found.filter fun held => held.place ∉ db.machines).filterMap fun held =>
        held.resource.jobId.map fun id => .orphan held.backend held.resource id (db.knownState id) := by
  induction found with
  | nil => rfl
  | cons held rest shorter =>
      rw [List.filterMap_cons, drift_eq, List.filter_cons]
      by_cases here : held.place ∈ db.machines
      · cases tagged : held.resource.jobId with
        | none => simpa [here, Drift.untagged] using shorter
        | some id => simpa [here] using shorter
      · cases tagged : held.resource.jobId with
        | none => simpa [here, tagged, Drift.untagged] using shorter
        | some id => simpa [here, tagged, Drift.orphan] using shorter

theorem resource_not_lost {db : Db} {found : List HeldResource} {drift : Drift}
    (member : drift ∈ found.filterMap (HeldResource.drift db (db.activeJobs.map fun job => (job.machine, job)))) :
    drift.kind ≠ .lost := by
  obtain ⟨held, _, made⟩ := List.mem_filterMap.mp member
  rw [drift_eq] at made
  split at made
  · cases made
    exact nofun
  · split at made
    · cases made
    · cases made
      exact nofun

/-- There is nothing to say of resources exactly where each is tagged and on an active job's record. -/
theorem no_drifts_iff (db : Db) (found : List HeldResource) :
    found.filterMap (HeldResource.drift db (db.activeJobs.map fun job => (job.machine, job))) = [] ↔
      (∀ held ∈ found, held.resource.jobId.isSome) ∧ ∀ place ∈ found.map HeldResource.place, place ∈ db.machines := by
  rw [List.filterMap_eq_nil_iff, List.forall_mem_map, ← forall₂_and]
  refine forall₂_congr fun held _ => ?_
  rw [drift_eq]
  cases held.resource.jobId with
  | none => simp
  | some id => simp

/-- The comparison is exact. -/
theorem exact_drifts {db : Db} (recorded : Recorded db) (found : List HeldResource) :
    ReportsExactly db found (found.filterMap (HeldResource.drift db (byMachine db.activeJobs)) ++
      ((byMachine db.activeJobs).filter fun entry => entry.1 ∉ found.map HeldResource.place).map
        fun entry => Drift.lost entry.1 entry.2) := by
  have lost : ((byMachine db.activeJobs).filter fun entry => entry.1 ∉ found.map HeldResource.place).map
      (fun entry => Drift.lost entry.1 entry.2) =
        (db.activeJobs.filter fun job => job.machine ∉ found.map HeldResource.place).map fun job =>
          .lost job.machine job := by
    rw [recorded.byMachine_eq, List.filter_map, List.map_map]
    rfl
  rw [lost, recorded.byMachine_eq]
  have others : ∀ kind, kind ≠ DriftKind.lost → ((db.activeJobs.filter fun job =>
      job.machine ∉ found.map HeldResource.place).map fun job => Drift.lost job.machine job).filter
        (fun drift => drift.kind = kind) = [] := by
    intro kind differs
    refine List.filter_eq_nil_iff.mpr fun drift member same => ?_
    obtain ⟨job, _, rfl⟩ := List.mem_map.mp member
    exact differs (of_decide_eq_true same).symm
  refine ⟨?_, ?_, ?_, ?_⟩
  · rw [List.filter_append, others .untagged nofun, List.append_nil, untagged_drifts]
  · rw [List.filter_append, others .orphan nofun, List.append_nil, orphan_drifts]
  · rw [List.filter_append, List.filter_eq_nil_iff.mpr, List.nil_append]
    · refine List.filter_eq_self.mpr fun drift member => ?_
      obtain ⟨job, _, rfl⟩ := List.mem_map.mp member
      rfl
    · exact fun drift member same => resource_not_lost member (of_decide_eq_true same)
  · rw [List.append_eq_nil_iff, no_drifts_iff, List.map_eq_nil_iff, List.filter_eq_nil_iff, and_assoc]
    refine and_congr_right fun _ => ?_
    have lists : (∀ job ∈ db.activeJobs, ¬decide (job.machine ∉ found.map HeldResource.place) = true) ↔
        ∀ place ∈ db.machines, place ∈ found.map HeldResource.place := by
      unfold Db.machines
      rw [List.forall_mem_map]
      refine forall₂_congr fun job _ => ?_
      rw [decide_eq_true_iff, not_not]
    rw [lists, ← forall_and]
    exact forall_congr' fun place => iff_iff_implies_and_implies.symm

/-- What is listed is listed by a backend that is configured. -/
theorem configured_of_listings {listResources : Backend γ → γ → Except String (List Resource) × γ}
    {backends : List (Backend γ)} {cloud last : γ} {found : List HeldResource}
    (listed : listings listResources backends cloud = (.ok found, last)) :
    ∀ held ∈ found, ∃ backend ∈ backends, backend.name = held.backend := by
  induction backends generalizing cloud found last with
  | nil =>
      cases listed
      exact fun _ member => absurd member List.not_mem_nil
  | cons backend rest shorter =>
      unfold listings at listed
      rcases call : listResources backend cloud with ⟨came, after⟩
      rw [call] at listed
      cases came with
      | error detail => cases listed
      | ok resources =>
          rcases further : listings listResources rest after with ⟨later, still⟩
          simp only [further] at listed
          cases later with
          | error detail => cases listed
          | ok more =>
              cases listed
              intro held member
              rcases List.mem_append.mp member with here | there
              · obtain ⟨resource, _, rfl⟩ := List.mem_map.mp here
                exact ⟨backend, List.mem_cons_self, rfl⟩
              · obtain ⟨other, known, same⟩ := shorter further held there
                exact ⟨other, List.mem_cons_of_mem _ known, same⟩

/-- Where every backend answers, reconciling reports each disagreement once and nothing else, writes nothing, and
reports each active job that a pass leaves alone because its backend is not configured. -/
theorem reconcile_exact (site : Site γ) (listResources : Backend γ → γ → Except String (List Resource) × γ)
    (world : World γ) (recorded : Recorded world.db) {found : List HeldResource} {cloud : γ}
    (listed : listings listResources site.backends world.cloud = (.ok found, cloud)) :
    ∃ drifts, (reconcile site listResources).whole world = (.ok drifts, world.called cloud) ∧
      ReportsExactly world.db found drifts ∧
      ∀ job ∈ world.db.activeJobs, site.backend (job.backend.getD "") = none →
        (∀ now, advance site job now = pure {}) ∧ .lost job.machine job ∈ drifts := by
  have exact := exact_drifts recorded found
  refine ⟨_, whole_reconcile site listResources world listed, exact, fun job active unknown => ?_⟩
  have unlisted : job.machine ∉ found.map HeldResource.place := by
    intro there
    obtain ⟨held, member, same⟩ := List.mem_map.mp there
    obtain ⟨backend, known, name⟩ := configured_of_listings listed held member
    have sited : job.backend = some held.backend := (Prod.mk.inj same).1.symm
    unfold Site.backend at unknown
    rw [sited, Option.getD_some, List.find?_eq_none] at unknown
    exact unknown backend known (decide_eq_true name)
  refine ⟨fun now => ?_, ?_⟩
  · unfold advance
    rw [unknown]
  · have among : Drift.lost job.machine job ∈ (world.db.activeJobs.filter fun job =>
        job.machine ∉ found.map HeldResource.place).map fun job => .lost job.machine job :=
      List.mem_map.mpr ⟨job, List.mem_filter.mpr ⟨active, decide_eq_true unlisted⟩, rfl⟩
    rw [← exact.lost] at among
    exact (List.mem_filter.mp among).1

theorem Recorded.of_rows {db : Db}
    (handled : ∀ job ∈ db.jobs.rows, (truthy job.backendHandle).isSome ↔ job.state.active)
    (apart : ((db.jobs.rows.filter fun job => job.state.active).map Job.machine).Nodup) : Recorded db := by
  refine ⟨fun id job found => handled job (Table.find_mem found), ?_⟩
  intro one other first second hasFirst hasSecond active alive same
  have left : first ∈ db.jobs.rows.filter fun job => job.state.active :=
    List.mem_filter.mpr ⟨Table.find_mem hasFirst, active⟩
  have right : second ∈ db.jobs.rows.filter fun job => job.state.active :=
    List.mem_filter.mpr ⟨Table.find_mem hasSecond, alive⟩
  rw [← Table.find_key hasFirst, ← Table.find_key hasSecond, List.inj_on_of_nodup_map apart left right same]

/-- The club's job runs on a machine that the rack does not list; it lists another, without a tag. -/
theorem reconcile_exact_rack :
    let world := Rack.running.after (Operation.opening ++ Operation.ticks 1) (World.club .club)
    let lists : Backend Rack → Rack → Except String (List Resource) × Rack :=
      fun _ rack => (.ok [⟨"i-9", "t4", .running, []⟩], rack)
    ∃ drifts, (reconcile Rack.running.site lists).whole world = (.ok drifts, world.called world.cloud) ∧
      ReportsExactly world.db [⟨"cloud", ⟨"i-9", "t4", .running, []⟩⟩] drifts := by
  intro world lists
  obtain ⟨drifts, run, exact, _⟩ := reconcile_exact Rack.running.site lists world
    (Recorded.of_rows (by decide +kernel) (by decide +kernel)) rfl
  exact ⟨drifts, run, exact⟩

end GpuBroker.Broker
