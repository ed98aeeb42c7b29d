/-
This file is how many machines an AWS account has for each kind of GPU, beside
the limit that the broker is given for it.

A launch counts the machines of one instance type in a listing that may be some
seconds old, and launches a machine of a type that may be another. As long as
the listing that a launch counts shows each live machine that was launched for
the kind, as one of the counted type, no kind has more machines than its limit.
-/
import GpuBroker.Broker.Homes
import GpuBroker.Broker.Chores

namespace GpuBroker.Broker

open Library

/-! ### Machines by what they were launched for -/

/-- The jobs of the broker, each under its identifier. -/
structure Roster where
  job : JobId → Job
  named : ∀ id, (job id).jobId = id

/-- The kind of GPU of a job. -/
def Roster.kind (roster : Roster) (id : JobId) : String := (roster.job id).gpuType

/-- Is a machine live, and was it launched for a kind of GPU? -/
def Instance.serves (roster : Roster) (gpuType : String) (machine : Instance) : Bool :=
  machine.state.live && (machine.tags.lookup tagJobId).map roster.kind = some gpuType

/-- Machines that are going or gone do not come back. -/
def Weather.Mortal (weather : Weather) : Prop :=
  ∀ number machine state reason online, weather.moves number machine = some (state, reason, online) →
    state.live = true → machine.state.live = true

namespace Ec2

/-- The live machines that were launched for a kind of GPU. -/
def heldFor (roster : Roster) (gpuType : String) (account : Ec2) : List Instance :=
  account.instances.filter (Instance.serves roster gpuType)

/-- The machines bear identifiers of their own, each from a launch. -/
structure Named (account : Ec2) : Prop where
  launched : ∀ machine ∈ account.instances, ∃ number < account.launched.length,
    Ec2Backend.idOf number = machine.instanceId
  distinct : (account.instances.map Instance.instanceId).Nodup

/-- No machine is there that was not there before, and none serves a kind that did not. -/
structure Lessens (roster : Roster) (before after : Ec2) : Prop where
  launched : after.launched = before.launched
  machines : (after.instances.map Instance.instanceId).Sublist (before.instances.map Instance.instanceId)
  held : ∀ gpuType, ((after.heldFor roster gpuType).map Instance.instanceId).Sublist
    ((before.heldFor roster gpuType).map Instance.instanceId)

variable {roster : Roster} {gpuType : String} {one two three before after account : Ec2} {weather : Weather}

theorem Lessens.refl (account : Ec2) : Lessens roster account account :=
  ⟨rfl, List.Sublist.refl _, fun _ => List.Sublist.refl _⟩

theorem Lessens.trans (first : Lessens roster one two) (second : Lessens roster two three) :
    Lessens roster one three :=
  ⟨second.launched.trans first.launched, second.machines.trans first.machines,
    fun gpuType => (second.held gpuType).trans (first.held gpuType)⟩

theorem Named.lessens (named : before.Named) (lessens : Lessens roster before after) : after.Named := by
  refine ⟨fun machine member => ?_, named.distinct.sublist lessens.machines⟩
  obtain ⟨earlier, was, same⟩ := List.mem_map.mp (lessens.machines.subset (List.mem_map_of_mem member))
  obtain ⟨number, given, is⟩ := named.launched earlier was
  exact ⟨number, by rw [lessens.launched]; exact given, is.trans same⟩

/-- Machines that change, or go, and keep what a test asks of those that stay. -/
theorem sublist_changed {machines : List Instance} {change : Instance → Option Instance} {test : Instance → Bool}
    (same : ∀ machine next, change machine = some next → next.instanceId = machine.instanceId)
    (kept : ∀ machine next, change machine = some next → test next = true → test machine = true) :
    (((machines.filterMap change).filter test).map Instance.instanceId).Sublist
      ((machines.filter test).map Instance.instanceId) := by
  induction machines with
  | nil => exact List.Sublist.refl _
  | cons machine machines inductionHypothesis =>
      have rest : (((machines.filterMap change).filter test).map Instance.instanceId).Sublist
          (((machine :: machines).filter test).map Instance.instanceId) :=
        inductionHypothesis.trans (((List.sublist_cons_self machine machines).filter _).map _)
      cases moved : change machine with
      | none =>
          rw [List.filterMap_cons_none moved]
          exact rest
      | some next =>
          rw [List.filterMap_cons_some moved, List.filter_cons]
          split
          · next passes =>
            rw [List.filter_cons_of_pos (kept machine next moved passes), List.map_cons, List.map_cons,
              same machine next moved]
            exact inductionHypothesis.cons_cons _
          · exact rest

/-- What machines do that keep their identifiers and the job they are tagged with, and do not come back. -/
theorem lessens_changed {change : Instance → Option Instance}
    (instances : after.instances = before.instances.filterMap change) (launched : after.launched = before.launched)
    (same : ∀ machine next, change machine = some next → next.instanceId = machine.instanceId ∧
      next.tags.lookup tagJobId = machine.tags.lookup tagJobId ∧
      (next.state.live = true → machine.state.live = true)) : Lessens roster before after := by
  have named := fun machine next moved => (same machine next moved).1
  refine ⟨launched, ?_, fun gpuType => ?_⟩
  · have all : ((before.instances.filterMap change).filter fun _ => true).map Instance.instanceId |>.Sublist
        ((before.instances.filter fun _ => true).map Instance.instanceId) :=
      sublist_changed named fun _ _ _ _ => rfl
    rw [List.filter_true, List.filter_true] at all
    rw [instances]
    exact all
  · unfold heldFor
    rw [instances]
    refine sublist_changed named fun machine next moved serves => ?_
    obtain ⟨_, tagged, lives⟩ := same machine next moved
    unfold Instance.serves at serves ⊢
    rw [Bool.and_eq_true] at serves ⊢
    exact ⟨lives serves.1, tagged ▸ serves.2⟩

/-- What leaves the machines as they are. -/
theorem lessens_plain (instances : after.instances = before.instances) (launched : after.launched = before.launched) :
    Lessens roster before after :=
  lessens_changed (instances.trans List.filterMap_some.symm) launched fun _ _ moved => by
    cases moved
    exact ⟨rfl, rfl, id⟩

theorem lessens_arrived (mortal : weather.Mortal) (account : Ec2) :
    Lessens roster account (account.arrived weather) := by
  refine lessens_changed rfl rfl fun machine next moved => ?_
  obtain ⟨⟨state, reason, online⟩, went, rfl⟩ := Option.map_eq_some_iff.mp moved
  exact ⟨rfl, rfl, mortal _ machine state reason online went⟩

/-- Machines that are changed in place. -/
theorem lessens_map {change : Instance → Instance} (instances : after.instances = before.instances.map change)
    (launched : after.launched = before.launched)
    (same : ∀ machine, (change machine).instanceId = machine.instanceId ∧
      (change machine).tags.lookup tagJobId = machine.tags.lookup tagJobId ∧
      ((change machine).state.live = true → machine.state.live = true)) : Lessens roster before after := by
  have each : after.instances = before.instances.filterMap fun machine => some (change machine) := by
    rw [instances, ← List.filterMap_eq_map]
    rfl
  refine lessens_changed each launched fun machine next moved => ?_
  cases moved
  exact same machine

theorem lessens_shutting (handle : String) (account : Ec2) :
    Lessens roster account (Ec2Backend.shutting handle account) := by
  refine lessens_map rfl rfl fun machine => ?_
  split
  · exact ⟨rfl, rfl, nofun⟩
  · exact ⟨rfl, rfl, id⟩

theorem lessens_tagging (handle command : String) (sampler : Option String) (account : Ec2) :
    Lessens roster account (Ec2Backend.tagging handle (Ec2Backend.commandTags command sampler) account) := by
  have others : ∀ (more tags : List (String × String)), (∀ tag ∈ more, tag.1 ≠ tagJobId) →
      (more.foldl withTag tags).lookup tagJobId = tags.lookup tagJobId := by
    intro more
    induction more with
    | nil => exact fun _ _ => rfl
    | cons tag more inductionHypothesis =>
        intro tags apart
        rw [List.foldl_cons, inductionHypothesis _ fun other member => apart other (List.mem_cons_of_mem _ member),
          lookup_withTag, if_neg (apart tag List.mem_cons_self).symm]
  have apart : ∀ tag ∈ Ec2Backend.commandTags command sampler, tag.1 ≠ tagJobId := by
    intro tag member
    have keys : tagCommandId ≠ tagJobId ∧ tagSamplerId ≠ tagJobId := by decide
    rcases List.mem_cons.mp member with rfl | rest
    · exact keys.1
    · obtain ⟨id, _, rfl⟩ := List.mem_map.mp rest
      exact keys.2
  refine lessens_map rfl rfl fun machine => ?_
  split
  · exact ⟨rfl, others _ _ apart, id⟩
  · exact ⟨rfl, rfl, id⟩

theorem lessens_settled (roster : Roster) (mortal : weather.Mortal) : Settled weather (Lessens roster) where
  refl := Lessens.refl
  trans := Lessens.trans
  arrives := lessens_arrived mortal
  reads := fun _ => lessens_plain rfl rfl
  notes := fun _ _ _ _ => lessens_plain rfl rfl
  lists := fun _ _ _ => lessens_plain rfl rfl
  shuts := lessens_shutting

/-- A start launches nothing. -/
theorem steady_start (roster : Roster) (mortal : weather.Mortal) (backend : Ec2Backend) (handle : String) (job : Job) :
    Steady (Lessens roster) (backend.start weather handle job) := by
  have settled := lessens_settled roster mortal
  have accepted : ∀ account, Lessens roster account (Ec2Backend.commanded handle account) := by
    intro account
    unfold Ec2Backend.commanded
    split
    · exact lessens_plain rfl rfl
    · exact Lessens.refl account
  have watched : ∀ account, Lessens roster account (Ec2Backend.sampled handle account) := by
    intro account
    unfold Ec2Backend.sampled
    split
    · exact lessens_plain rfl rfl
    · exact Lessens.refl account
  refine steady_bind (settled.commandId handle) fun command => ?_
  cases command with
  | some command => exact steady_pure _
  | none =>
      refine steady_bind (settled.ask accepted) fun answer => ?_
      cases answer with
      | error code => exact steady_fail _
      | ok command =>
          refine steady_bind (steady_bind (settled.ask watched) fun answer => ?_) fun sampler => ?_
          · cases answer with
            | error code | ok sampler => exact steady_pure _
          · refine steady_bind (steady_bind (settled.ask (lessens_tagging handle command sampler)) fun answer => ?_)
              fun _ => settled.invalidate
            cases answer with
            | error code => exact steady_fail _
            | ok _ => exact steady_pure _

/-! ### What a launch counts -/

/-- The limit of a kind of GPU. -/
def limitOf (aws : AwsConfig) (gpuType : String) : Int := (aws.maxInstances.lookup gpuType).getD 0

/-- A backend has counted fewer machines than the limit of a kind in the listing that it keeps. -/
def Counted (backend : Ec2Backend) (gpuType : String) (account : Ec2) : Prop :=
  ∃ found moment, (account.memory backend.name).cache = some (found, moment) ∧
    ∃ wanted, backend.aws.instanceTypeFor gpuType = some wanted ∧
      ((found.countP fun machine => machine.instanceType = wanted : Nat) : Int) < limitOf backend.aws gpuType

section Counting

variable {backend : Ec2Backend} {owes : Ec2 → Ec2 → Prop}

/-- A backend keeps the listing that it goes by. -/
theorem instances_kept (settled : Settled weather owes) (account : Ec2) :
    (backend.instances weather).Safe (Contract.lone fun _ => owes)
      (fun found last => ∃ moment, (last.memory backend.name).cache = some (found, moment)) account := by
  refine (settled.reading account).bind fun now read _ _ => ?_
  refine (settled.recalling backend.name Memory.cache read).bind fun remembered here _ both => ?_
  obtain ⟨rfl, rfl⟩ := both
  split
  · next cache young =>
    rintro last rfl _
    exact ⟨cache.2, (Option.filter_eq_some_iff.mp young).1⟩
  · refine (settled.requesting (settled.refl _) (settled.lists backend now _)).bind fun answer last _ came => ?_
    cases came with
    | answered =>
        rintro last rfl _
        refine ⟨now, ?_⟩
        unfold Ec2Backend.caching
        exact congrArg Memory.cache (memory_remember _ _ _)
    | refused code _ => exact fun _ _ _ => trivial
    | unanswered => exact fun _ _ _ => trivial

theorem countedSlots_counted (settled : Settled weather owes) (gpuType : String) (account : Ec2) :
    (backend.countedSlots weather gpuType).Safe (Contract.lone fun _ => owes)
      (fun free last => 0 < free → Counted backend gpuType last) account := by
  unfold Ec2Backend.countedSlots
  split
  · exact fun _ _ _ => trivial
  · next wanted named =>
    refine (instances_kept settled account).bind fun found last _ kept => ?_
    rintro final rfl _ free
    obtain ⟨moment, kept⟩ := kept
    refine ⟨found, moment, kept, wanted, named, ?_⟩
    unfold limitOf
    omega

theorem freeSlots_counted (settled : Settled weather owes) (gpuType : String) (account : Ec2) :
    (backend.freeSlots weather gpuType).Safe (Contract.lone fun _ => owes)
      (fun free last => 0 < free → Counted backend gpuType last) account := by
  unfold Ec2Backend.freeSlots
  split
  · exact fun _ _ _ free => absurd free (lt_irrefl 0)
  · refine (settled.recalling backend.name Memory.coolingUntil account).bind fun cooling here _ _ => ?_
    split
    · exact countedSlots_counted settled gpuType here
    · refine (settled.reading here).bind fun now read _ _ => ?_
      split
      · exact fun _ _ _ free => absurd free (lt_irrefl 0)
      · refine (settled.noting ?_ read).bind fun _ last _ _ => countedSlots_counted settled gpuType last
        exact fun _ _ kept => kept

/-- A launch that goes on has counted fewer machines than the limit. -/
theorem guardCapacity_counted (settled : Settled weather owes) (job : Job) (account : Ec2) :
    (backend.guardCapacity weather job).Safe (Contract.lone fun _ => owes)
      (fun _ last => Counted backend job.gpuType last) account := by
  unfold Ec2Backend.guardCapacity
  split
  · exact fun _ _ _ => trivial
  · split
    · exact fun _ _ _ => trivial
    · refine (freeSlots_counted settled job.gpuType account).bind fun free last _ counted => ?_
      simp only
      split
      · exact fun _ _ _ => trivial
      · next some =>
        rintro final rfl _
        exact counted (by omega)

/-- The price of a type is asked for without another listing. -/
theorem cheapestType_counted (settled : Settled weather owes) {gpuType : String} {account : Ec2}
    (counted : Counted backend gpuType account) :
    (backend.cheapestType weather gpuType).Safe (Contract.lone fun _ => owes)
      (fun _ last => Counted backend gpuType last) account := by
  unfold Ec2Backend.cheapestType
  split
  · exact fun _ _ _ => trivial
  · rintro last rfl _
    exact counted
  · refine (settled.requesting (settled.refl _) (settled.refl _)).bind fun answer last _ came => ?_
    have still : Counted backend gpuType last := by
      cases came with
      | answered | refused | unanswered => exact counted
    cases answer with
    | error code =>
        rintro final rfl _
        exact still
    | ok history =>
        rintro final rfl _
        exact still

/-- The parameters of a launch name its job, and the listing stays. -/
theorem runParams_counted (settled : Settled weather owes) (job : Job) {account : Ec2}
    (counted : Counted backend job.gpuType account) :
    (backend.runParams weather job).Safe (Contract.lone fun _ => owes)
      (fun params last => params.2.lookup tagJobId = some job.jobId ∧ Counted backend job.gpuType last) account := by
  have tagged : ∀ moment, (tagsFor job (backend.stamps.toIso moment)).lookup tagJobId = some job.jobId :=
    fun _ => List.lookup_cons_self
  refine (settled.reading account).bind fun moment read _ both => ?_
  obtain ⟨_, rfl⟩ := both
  simp only
  split
  · have still : Counted backend job.gpuType { account with readings := account.readings + 1 } := counted
    refine (cheapestType_counted settled still).bind fun kind last _ counted => ?_
    rintro final rfl _
    exact ⟨tagged moment, counted⟩
  · split
    · rintro final rfl _
      exact ⟨tagged moment, counted⟩
    · exact fun _ _ _ => trivial

end Counting

/-! ### Launches -/

/-- Does the listing that a backend keeps show each live machine that was launched for a kind, as one of the type
that is counted for it? -/
def showsHeld (weather : Weather) (roster : Roster) (backend : Ec2Backend) (gpuType : String) (account : Ec2) : Bool :=
  ((account.arrived weather).heldFor roster gpuType).all fun machine =>
    ((account.memory backend.name).cache.elim [] Prod.fst).any fun shown =>
      shown.instanceId = machine.instanceId && some shown.instanceType = backend.aws.instanceTypeFor gpuType

/-- No kind has more machines than its limit. -/
def Capped (roster : Roster) (aws : AwsConfig) (account : Ec2) : Prop :=
  ∀ gpuType, ((account.heldFor roster gpuType).length : Int) ≤ max 0 (limitOf aws gpuType)

theorem Capped.lessens {aws : AwsConfig} (capped : before.Capped roster aws) (lessens : Lessens roster before after) :
    after.Capped roster aws := by
  intro gpuType
  have fewer := (lessens.held gpuType).length_le
  rw [List.length_map, List.length_map] at fewer
  have here := capped gpuType
  omega

/-- Where the listing that was counted shows the machines of a kind, there are fewer than its limit. -/
theorem held_below {backend : Ec2Backend} (counted : Counted backend gpuType account)
    (named : (account.arrived weather).Named) (shown : showsHeld weather roster backend gpuType account = true) :
    (((account.arrived weather).heldFor roster gpuType).length : Int) < limitOf backend.aws gpuType := by
  obtain ⟨found, moment, kept, wanted, mapped, below⟩ := counted
  let held := (account.arrived weather).heldFor roster gpuType
  let matching := found.filter fun machine => machine.instanceType = wanted
  have distinct : (held.map Instance.instanceId).Nodup :=
    named.distinct.sublist (List.filter_sublist.map Instance.instanceId)
  have listed : held.map Instance.instanceId ⊆ matching.map Instance.instanceId := by
    intro id member
    obtain ⟨machine, here, rfl⟩ := List.mem_map.mp member
    obtain ⟨there, inside, same⟩ := List.any_eq_true.mp (List.all_eq_true.mp shown machine here)
    rw [kept] at inside
    rw [mapped, Bool.and_eq_true, decide_eq_true_eq, decide_eq_true_eq, Option.some.injEq] at same
    exact List.mem_map.mpr ⟨there, List.mem_filter.mpr ⟨inside, by simpa using same.2⟩, same.1⟩
  have fewer := (List.subperm_of_subset distinct listed).length_le
  rw [List.length_map, List.length_map, ← List.countP_eq_length_filter] at fewer
  show (held.length : Int) < _
  omega

/-- The contract of the calls of a process that is alone: no kind has more machines than its limit as long as
launches are shown those that it has. -/
def capping (roster : Roster) (aws : AwsConfig) (shown : Ec2 → Prop) : Contract Ec2 Request String where
  rely := fun before after => after = before
  guarantee := fun _ _ _ => True
  invariant := fun account => account.Named ∧ account.Capped roster aws
  allowed := fun label account => label = .runInstances → shown account
  raises := fun _ => True
  refl := fun _ => rfl
  trans := fun first second => second.trans first

section Launching

variable {α : Type} {aws : AwsConfig} {shown : Ec2 → Prop}

/-- What launches nothing keeps the limits. -/
theorem safe_capping {program : Aws α} {post : α → Ec2 → Prop}
    (safe : program.Safe (Contract.lone fun _ => Lessens roster) post account) :
    program.Safe (capping roster aws shown) post account :=
  safe.under (fun _ _ same => same) (fun _ _ => trivial) (fun _ _ _ => trivial)
    (fun _ _ _ kept _ lessens => ⟨⟨kept.1.lessens lessens, kept.2.lessens lessens⟩, trivial⟩) fun _ _ => trivial

theorem Named.launch (named : account.Named) (backend : Ec2Backend) (kind : String) (tags : List (String × String)) :
    (backend.withMachine kind tags account).Named := by
  refine ⟨fun machine member => ?_, ?_⟩
  · show ∃ number < (account.launched ++ [backend.name]).length, _
    rw [List.length_append, List.length_singleton]
    rcases List.mem_append.mp member with was | new
    · obtain ⟨number, below, same⟩ := named.launched machine was
      exact ⟨number, by omega, same⟩
    · rw [List.mem_singleton.mp new]
      exact ⟨account.launched.length, by omega, rfl⟩
  · show ((account.instances ++ [_]).map Instance.instanceId).Nodup
    rw [List.map_append, List.nodup_append]
    refine ⟨named.distinct, List.nodup_singleton _, ?_⟩
    rintro taken member _ single rfl
    obtain ⟨machine, was, rfl⟩ := List.mem_map.mp member
    obtain ⟨number, below, same⟩ := named.launched machine was
    exact below.ne (idOf_injective (same.trans (List.mem_singleton.mp single)))

/-- One more machine is there for the kind of its job, and for no other. -/
theorem heldFor_launch (backend : Ec2Backend) (kind : String) {tags : List (String × String)} {id : JobId}
    (tagged : tags.lookup tagJobId = some id) (account : Ec2) (gpuType : String) :
    ((backend.withMachine kind tags account).heldFor roster gpuType).length =
      (account.heldFor roster gpuType).length + if roster.kind id = gpuType then 1 else 0 := by
  have serves : Instance.serves roster gpuType
      ⟨Ec2Backend.idOf account.launched.length, kind, .pending, "", backend.spot, false, tags⟩ =
        decide (roster.kind id = gpuType) := by
    unfold Instance.serves
    simp [tagged, InstanceState.live]
  unfold heldFor
  show ((account.instances ++ [_]).filter _).length = _
  rw [List.filter_append, List.length_append]
  by_cases mine : roster.kind id = gpuType
  · rw [if_pos mine, List.filter_cons_of_pos (serves.trans (decide_eq_true mine))]
    rfl
  · rw [if_neg mine, List.filter_cons_of_neg (by rw [serves]; simpa using mine)]
    rfl

/-- A machine is launched for a kind that is below its limit. -/
theorem runInstances_caps (mortal : weather.Mortal) {backend : Ec2Backend} {kind : String}
    {tags : List (String × String)} {id : JobId} (tagged : tags.lookup tagJobId = some id)
    (counted : Counted backend (roster.kind id) account) (reply : Ec2 → Except String String) :
    (Ec2.ask weather .runInstances (backend.withMachine kind tags) reply).Safe
      (capping roster backend.aws fun account => showsHeld weather roster backend (roster.kind id) account = true)
      (fun _ _ => True) account := by
  intro current moved kept permitted
  have same : current = account := moved
  subst same
  have lessens : Lessens roster current (current.arrived weather) := lessens_arrived mortal current
  have named := kept.1.lessens lessens
  have capped := kept.2.lessens lessens
  have below := held_below counted named (permitted _ rfl rfl)
  have launched : (backend.withMachine kind tags (current.arrived weather)).Capped roster backend.aws := by
    intro gpuType
    have before := capped gpuType
    rw [heldFor_launch backend kind tagged]
    split
    · next mine =>
      rw [mine] at below
      omega
    · omega
  simp only
  split
  · exact ⟨⟨named.launch backend kind tags, launched⟩, trivial, fun _ _ _ => trivial⟩
  · exact ⟨⟨named, capped⟩, trivial, fun _ _ _ => trivial⟩
  · exact ⟨⟨named.launch backend kind tags, launched⟩, trivial, fun _ _ _ => trivial⟩

/-- A launch that is shown the machines of its kind keeps the limits. -/
theorem launch_caps (mortal : weather.Mortal) (backend : Ec2Backend) (id : JobId) (account : Ec2) :
    (backend.launch weather (roster.job id)).Safe
      (capping roster backend.aws fun account => showsHeld weather roster backend (roster.kind id) account = true)
      (fun _ _ => True) account := by
  have settled := lessens_settled roster mortal
  refine (safe_capping (guardCapacity_counted settled (roster.job id) account)).bind fun _ guarded _ counted => ?_
  refine (safe_capping (runParams_counted settled (roster.job id) counted)).bind fun params found _ both => ?_
  obtain ⟨tagged, counted⟩ := both
  rw [roster.named] at tagged
  refine (runInstances_caps mortal tagged counted _).bind fun answer last _ _ => ?_
  cases answer with
  | error code =>
      exact (safe_capping (settled.noteFailure last)).bind fun _ _ _ _ => fun _ _ _ => trivial
  | ok handle =>
      have noted : Steady (Lessens roster) (Ec2.note backend.name fun memory =>
          { memory with failures := 0, cache := none }) := settled.note fun _ => nofun
      exact (safe_capping (noted last)).bind fun _ _ _ _ => fun _ _ _ => trivial

end Launching

end Ec2

/-! ### Runs -/

/-- What the on-demand backend and the spot backend of a broker are both set up with. -/
structure Ec2Settings where
  aws : AwsConfig
  stamps : Stamps
  cacheTime : Duration
  maxLaunchFailures : Nat
  cooldown : Duration
  parseSample : String → Option Reading

/-- The backend of on-demand machines, or of spot ones. -/
def Ec2Settings.backend (settings : Ec2Settings) (spot : Bool) : Ec2Backend where
  name := if spot then "ec2-spot" else "ec2"
  tier := none
  spot := spot
  aws := settings.aws
  stamps := settings.stamps
  cacheTime := settings.cacheTime
  maxLaunchFailures := settings.maxLaunchFailures
  cooldown := settings.cooldown
  parseSample := settings.parseSample

/-- What the broker does with a backend, and a restart of the broker. -/
inductive AwsCall where
  | launch (id : JobId)
  | freeSlots (gpuType : String)
  | start (handle : String) (id : JobId)
  | poll (handle : String)
  | fetchLogs (handle : String) (after : Nat)
  | sampleUtilization (handle : String)
  | terminate (handle reason : String)
  | listResources
  | restart

namespace AwsCall

open Ec2

/-- A call as a program. -/
def program (roster : Roster) (weather : Weather) (backend : Ec2Backend) : AwsCall → Aws Unit
  | launch id => discard (backend.launch weather (roster.job id))
  | freeSlots gpuType => discard (backend.freeSlots weather gpuType)
  | start handle id => backend.start weather handle (roster.job id)
  | poll handle => discard (backend.poll weather handle)
  | fetchLogs handle after => discard (backend.fetchLogs weather handle after)
  | sampleUtilization handle => discard (backend.sampleUtilization weather handle)
  | terminate handle reason => backend.terminate weather handle reason
  | listResources => discard (backend.listResources weather)
  | restart => Program.quietly fun account => ((), account.forget)

/-- The kind of GPU that a call launches a machine for. -/
def kind (roster : Roster) : AwsCall → Option String
  | launch id => some (roster.kind id)
  | _ => none

/-- Is the request to launch, where a call makes it, made with a listing that shows the machines of the kind? -/
def Shown (roster : Roster) (weather : Weather) (backend : Ec2Backend) (call : AwsCall) (label : Request)
    (account : Ec2) : Prop :=
  label = .runInstances → (call.kind roster).all fun gpuType => showsHeld weather roster backend gpuType account

instance (roster : Roster) (weather : Weather) (backend : Ec2Backend) (call : AwsCall) (label : Request)
    (account : Ec2) : Decidable (call.Shown roster weather backend label account) :=
  inferInstanceAs (Decidable (_ → _))

end AwsCall

/-- A call of one of the two backends, and after how many accesses it is stopped. -/
structure AwsEntry where
  spot : Bool
  call : AwsCall
  accesses : Nat

namespace AwsEntry

open Ec2

/-- The program of an entry. -/
def program (settings : Ec2Settings) (roster : Roster) (weather : Weather) (entry : AwsEntry) : Aws Unit :=
  entry.call.program roster weather (settings.backend entry.spot)

/-- What a run of calls leaves. -/
def after (settings : Ec2Settings) (roster : Roster) (weather : Weather) : List AwsEntry → Ec2 → Ec2
  | [], account => account
  | entry :: entries, account =>
      after settings roster weather entries ((entry.program settings roster weather).run entry.accesses account).2

/-- Is every request to launch of a run made with a listing that shows the machines of the kind? -/
def AllShown (settings : Ec2Settings) (roster : Roster) (weather : Weather) : List AwsEntry → Ec2 → Prop
  | [], _ => True
  | entry :: entries, account =>
      Program.Allowed (entry.call.Shown roster weather (settings.backend entry.spot)) entry.accesses
        (entry.program settings roster weather) account ∧
      AllShown settings roster weather entries
        ((entry.program settings roster weather).run entry.accesses account).2

instance decidableAllShown (settings : Ec2Settings) (roster : Roster) (weather : Weather) :
    ∀ entries account, Decidable (AllShown settings roster weather entries account)
  | [], _ => isTrue trivial
  | entry :: entries, account =>
      have : Decidable (AllShown settings roster weather entries
          ((entry.program settings roster weather).run entry.accesses account).2) :=
        decidableAllShown settings roster weather _ _
      inferInstanceAs (Decidable (_ ∧ _))

end AwsEntry

namespace Ec2

variable {roster : Roster} {weather : Weather} {settings : Ec2Settings} {account : Ec2}

/-- A call keeps the limits, wherever it stops. -/
theorem entry_caps (mortal : weather.Mortal) {entry : AwsEntry} (kept : account.Named ∧ account.Capped roster settings.aws)
    (shown : Program.Allowed (entry.call.Shown roster weather (settings.backend entry.spot)) entry.accesses
      (entry.program settings roster weather) account) :
    let left := ((entry.program settings roster weather).run entry.accesses account).2
    left.Named ∧ left.Capped roster settings.aws := by
  have settled := lessens_settled roster mortal
  let backend := settings.backend entry.spot
  suffices safe : (entry.program settings roster weather).Safe
      (capping roster settings.aws fun account =>
        (entry.call.kind roster).all fun gpuType => showsHeld weather roster backend gpuType account)
      (fun _ _ => True) account from (safe.run kept shown).1
  have steady : ∀ {program : Aws Unit}, Steady (Lessens roster) program → program.Safe
      (capping roster settings.aws fun account =>
        (entry.call.kind roster).all fun gpuType => showsHeld weather roster backend gpuType account)
      (fun _ _ => True) account := fun steady => safe_capping (steady account)
  obtain ⟨spot, call, accesses⟩ := entry
  cases call with
  | launch id => exact (launch_caps mortal backend id account).bind fun _ _ _ _ => fun _ _ _ => trivial
  | freeSlots gpuType => exact steady (steady_discard (settled.freeSlots gpuType))
  | start handle id => exact steady (steady_start roster mortal backend handle (roster.job id))
  | poll handle => exact steady (steady_discard (settled.poll handle))
  | fetchLogs handle after => exact steady (steady_discard (settled.fetchLogs handle after))
  | sampleUtilization handle => exact steady (steady_discard (settled.sampleUtilization handle))
  | terminate handle reason => exact steady (settled.terminate handle reason)
  | listResources => exact steady (steady_discard settled.listResources)
  | restart =>
      refine steady ?_
      rintro account current rfl _ _
      exact ⟨trivial, lessens_plain rfl rfl, fun _ _ _ => trivial⟩

/-- No kind has more machines than its limit, whatever calls are made, when each launch is shown those that it
has. -/
theorem held_within (settings : Ec2Settings) (roster : Roster) (weather : Weather) (mortal : weather.Mortal)
    (entries : List AwsEntry) (shown : AwsEntry.AllShown settings roster weather entries Ec2.new) (gpuType : String)
    (natural : 0 ≤ limitOf settings.aws gpuType) :
    (((AwsEntry.after settings roster weather entries Ec2.new).heldFor roster gpuType).length : Int) ≤
      limitOf settings.aws gpuType := by
  have run : ∀ (entries : List AwsEntry) (account : Ec2), account.Named ∧ account.Capped roster settings.aws →
      AwsEntry.AllShown settings roster weather entries account →
        (AwsEntry.after settings roster weather entries account).Capped roster settings.aws := by
    intro entries
    induction entries with
    | nil => exact fun account kept _ => kept.2
    | cons entry entries inductionHypothesis =>
        exact fun account kept shown => inductionHypothesis _ (entry_caps mortal kept shown.1) shown.2
  have start : Ec2.new.Named ∧ Ec2.new.Capped roster settings.aws :=
    ⟨⟨nofun, List.nodup_nil⟩, fun _ => le_max_left 0 _⟩
  have capped := run entries Ec2.new start shown gpuType
  rwa [max_eq_right natural] at capped

end Ec2

/-- One machine for the kind, and of spot machines another type than the one that is counted. -/
def Ec2Settings.single : Ec2Settings where
  aws :=
    { ami := some "ami-1", instanceProfile := some "broker", instanceTypes := [("t4", "g4dn.xlarge")]
      spotInstanceTypes := [("t4", ["g4dn.2xlarge"])], maxInstances := [("t4", 1)], agentTimeout := 900000000 }
  stamps := Lab.clockStamps
  cacheTime := 5000000
  maxLaunchFailures := 3
  cooldown := 900000000
  parseSample := fun _ => none

/-- Jobs of one kind. -/
def Roster.training : Roster where
  job id := NewJob.row ⟨id, "ann", "train", "t4", 4, .usd, 1, none, "real"⟩ .queued 0
  named := fun _ => rfl

/-- Requests are answered, machines stay as they are and the clock stands still. -/
def Weather.calm : Weather where
  clock := fun _ => 0
  fate := fun _ => .answered
  moves := fun _ machine => some (machine.state, machine.stateReason, machine.online)
  invocation := fun _ _ _ => .error "InvocationDoesNotExist"
  logEvents := fun _ _ _ => .ok ([], none)
  spotPrices := fun _ => []
  honest := nofun

/-- Two jobs are launched one after another, on demand or on spot machines. -/
def AwsEntry.launchedTwo (spot : Bool) : List AwsEntry := [⟨spot, .launch "job-1", 100⟩, ⟨spot, .launch "job-2", 100⟩]

namespace Ec2

/-- A second job is not launched on demand where one machine is the limit. -/
theorem held_within_one :
    (((AwsEntry.after .single .training .calm (AwsEntry.launchedTwo false) Ec2.new).heldFor .training "t4").length :
      Int) ≤ 1 := by
  have mortal : Weather.calm.Mortal := by
    intro number machine state reason online same live
    cases same
    exact live
  have shown : AwsEntry.AllShown .single .training .calm (AwsEntry.launchedTwo false) Ec2.new := by decide +kernel
  exact held_within .single .training .calm mortal (AwsEntry.launchedTwo false) shown "t4" (by decide)

/-- A second job is launched on a spot machine, where one machine is the limit and the first is of a type that is
not counted. -/
theorem second_uncounted :
    ((AwsEntry.after .single .training .calm (AwsEntry.launchedTwo true) Ec2.new).heldFor .training "t4").length = 2 ∧
      limitOf Ec2Settings.single.aws "t4" = 1 := by
  refine ⟨?_, ?_⟩ <;> decide +kernel

end Ec2

end GpuBroker.Broker
