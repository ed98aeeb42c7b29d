/-
This file is how many jobs share a card of the lab pool.

A launch reads what is free from listings of the live jobs. It takes the host
with the most room and the least-loaded card on it, so a bound on the jobs of a
host bounds those of the card. But a listing that fails is read as one without
jobs, and a job whose run has not begun is not listed. As long as the listings
of launches are answered and show the cards of the jobs that are there, no card
has more jobs than it may.
-/
import Mathlib.Algebra.Order.BigOperators.Group.Finset
import GpuBroker.Broker.Exits

namespace GpuBroker.Broker

open Library

namespace Lab

/-! ### Cards -/

namespace LocalBackend

/-- Of items fewer than so many for each key, some key has fewer than so many. -/
theorem exists_count_lt {Key : Type} [DecidableEq Key] {keys items : List Key} {limit : Nat} (apart : keys.Nodup)
    (few : items.length < keys.length * limit) : ∃ key ∈ keys, items.count key < limit := by
  have counted : ∑ key ∈ keys.toFinset, items.count key ≤ items.length := by
    rw [← List.sum_toFinset_count_eq_length]
    exact Finset.sum_le_sum_of_ne_zero fun key _ some =>
      List.mem_toFinset.mpr (List.count_pos_iff.mp (Nat.pos_of_ne_zero some))
  have room : ∑ key ∈ keys.toFinset, items.count key < ∑ _key ∈ keys.toFinset, limit := by
    rw [Finset.sum_const_nat fun _ _ => rfl, List.toFinset_card_of_nodup apart]
    exact counted.trans_lt few
  obtain ⟨key, member, fewer⟩ := Finset.exists_lt_of_sum_lt room
  exact ⟨key, List.mem_toFinset.mp member, fewer⟩

/-- Counts with an entry for each of some cards, which says how many of some jobs are on it. -/
def tally (seen keys : List Int) : List (Int × Nat) := keys.map fun key => (key, seen.count key)

/-- One more job is counted on its card. -/
theorem bump_tally {seen keys : List Int} {index : Int} (apart : keys.Nodup)
    (absent : index ∉ keys → seen.count index = 0) :
    bump (tally seen keys) index = tally (seen ++ [index]) (if index ∈ keys then keys else keys ++ [index]) := by
  have others : ∀ key, key ≠ index → (seen ++ [index]).count key = seen.count key := by
    intro key other
    rw [List.count_append, List.count_singleton, if_neg (by simpa using other.symm), Nat.add_zero]
  have mine : (seen ++ [index]).count index = seen.count index + 1 := by
    rw [List.count_append, List.count_singleton_self]
  induction keys with
  | nil =>
      show [(index, 1)] = [(index, (seen ++ [index]).count index)]
      rw [mine, absent List.not_mem_nil]
  | cons key keys inductionHypothesis =>
      obtain ⟨fresh, rest⟩ := List.nodup_cons.mp apart
      show (if key = index then (index, seen.count key + 1) :: tally seen keys
        else (key, seen.count key) :: bump (tally seen keys) index) = _
      by_cases same : key = index
      · subst same
        have kept : tally (seen ++ [key]) keys = tally seen keys :=
          List.map_congr_left fun other member => by rw [others other fun same => fresh (same ▸ member)]
        rw [if_pos rfl, if_pos List.mem_cons_self, ← kept, ← mine]
        rfl
      · have elsewhere : index ∈ key :: keys ↔ index ∈ keys := by simp [Ne.symm same]
        rw [if_neg same, inductionHypothesis rest (fun none => absent (mt elsewhere.mp none)), ← others key same]
        simp only [elsewhere]
        split
        · rfl
        · rfl

/-- The loads of a host's cards: each job is counted on its card, and each card of the host has a count. -/
theorem loads_tally {gpus : List GpuInfo} (apart : Apart gpus) (live : List Fields) :
    ∃ keys, (∀ gpu ∈ gpus, gpu.index ∈ keys) ∧ loads gpus live = tally (live.filterMap cardOf) keys := by
  have counted : ∀ (cards seen keys : List Int), keys.Nodup → (∀ index ∈ seen, index ∈ keys) →
      ∃ more, (∀ key ∈ keys, key ∈ more) ∧ cards.foldl bump (tally seen keys) = tally (seen ++ cards) more := by
    intro cards
    induction cards with
    | nil => exact fun seen keys _ _ => ⟨keys, fun _ => id, by rw [List.append_nil]; rfl⟩
    | cons index cards inductionHypothesis =>
        intro seen keys apart known
        have absent : index ∉ keys → seen.count index = 0 := fun none =>
          List.count_eq_zero.mpr fun member => none (known index member)
        obtain ⟨grown, apartGrown, larger, mine⟩ : ∃ grown : List Int, grown.Nodup ∧ (∀ key ∈ keys, key ∈ grown) ∧
            index ∈ grown ∧ bump (tally seen keys) index = tally (seen ++ [index]) grown := by
          refine ⟨_, ?_, ?_, ?_, bump_tally apart absent⟩
          · split
            · exact apart
            · next fresh => exact List.nodup_append.mpr ⟨apart, List.nodup_singleton _, by grind⟩
          · split
            · exact fun _ => id
            · exact fun _ member => List.mem_append_left _ member
          · split
            · assumption
            · exact List.mem_append_right _ List.mem_cons_self
        obtain ⟨more, kept, same⟩ := inductionHypothesis (seen ++ [index]) grown apartGrown (by grind)
        refine ⟨more, fun key member => kept key (larger key member), ?_⟩
        rw [List.foldl_cons, mine.2, same, List.append_assoc, List.singleton_append]
  obtain ⟨keys, kept, same⟩ := counted (live.filterMap cardOf) [] (gpus.map GpuInfo.index) apart nofun
  refine ⟨keys, fun gpu member => kept _ (List.mem_map_of_mem member), ?_⟩
  unfold loads
  rw [← List.nil_append (live.filterMap cardOf), ← same]
  unfold tally
  rw [List.map_map, List.nil_append]
  rfl

theorem leastLoaded_eq_none {counts : List (Int × Nat)} : leastLoaded counts = none ↔ counts = [] := by
  cases counts with
  | nil => exact ⟨fun _ => rfl, fun _ => rfl⟩
  | cons first rest =>
      refine ⟨fun least => ?_, nofun⟩
      unfold leastLoaded at least
      split at least
      · cases least
      · split at least
        · cases least
        · cases least

/-- The least-loaded card is one of those there are, and none has less. -/
theorem leastLoaded_least {counts : List (Int × Nat)} {best : Int × Nat} (least : leastLoaded counts = some best) :
    best ∈ counts ∧ ∀ entry ∈ counts, best.2 ≤ entry.2 := by
  induction counts generalizing best with
  | nil => cases least
  | cons first rest inductionHypothesis =>
      unfold leastLoaded at least
      cases later : leastLoaded rest with
      | none =>
          simp only [later] at least
          cases least
          have alone : rest = [] := leastLoaded_eq_none.mp later
          subst alone
          exact ⟨List.mem_cons_self, by simp⟩
      | some other =>
          obtain ⟨member, fewest⟩ := inductionHypothesis later
          simp only [later] at least
          split at least
          · next before =>
            cases least
            have fewer : first.2 ≤ other.2 := by omega
            exact ⟨List.mem_cons_self, by simpa using fun index load inside => fewer.trans (fewest _ inside)⟩
          · next before =>
            cases least
            have fewer : best.2 ≤ first.2 := by omega
            exact ⟨List.mem_cons_of_mem _ member, by simpa [fewer] using fun index load => fewest (index, load)⟩

/-- With fewer jobs than so many for each card, fewer than so many are on the least-loaded one. -/
theorem loads_room {gpus : List GpuInfo} {live : List Fields} {limit : Nat} (apart : Apart gpus)
    (few : (live.filterMap cardOf).length < gpus.length * limit) :
    ∃ best, leastLoaded (loads gpus live) = some best ∧ (live.filterMap cardOf).count best.1 < limit := by
  obtain ⟨keys, listed, counted⟩ := loads_tally apart live
  obtain ⟨index, member, fewer⟩ := exists_count_lt apart (few.trans_eq (by rw [List.length_map]))
  obtain ⟨gpu, here, rfl⟩ := List.mem_map.mp member
  have entry : (gpu.index, (live.filterMap cardOf).count gpu.index) ∈ loads gpus live := by
    rw [counted]
    exact List.mem_map_of_mem (listed gpu here)
  cases least : leastLoaded (loads gpus live) with
  | none => exact absurd (leastLoaded_eq_none.mp least) (List.ne_nil_of_mem entry)
  | some best =>
      obtain ⟨there, fewest⟩ := leastLoaded_least least
      rw [counted] at there
      obtain ⟨key, _, rfl⟩ := List.mem_map.mp there
      exact ⟨_, rfl, (fewest _ entry).trans_lt fewer⟩

end LocalBackend

/-! ### Machines -/

namespace Machine

variable {machine after : Machine}

theorem liveOn_length (machine : Machine) (device : Int) :
    (machine.liveOn device).length = machine.present.countP fun live => live.2 = device := by
  unfold liveOn present
  rw [List.countP_map, List.countP_filter, List.countP_eq_length_filter]
  refine congrArg List.length (List.filter_congr fun run _ => ?_)
  simp [Bool.and_comm]

/-- How many jobs beside one are on a card. -/
def others (machine : Machine) (job : JobId) (device : Int) : Nat :=
  machine.present.countP fun live => live.1 ≠ job ∧ live.2 = device

/-- No job of a machine with some of the runs of another is there that is not on the other. -/
theorem present_sublist (rows : List Run) (change : Run → Run)
    (same : ∀ run ∈ rows, (change run).state.live = true → run.state.live = true ∧
      (change run).jobId = run.jobId ∧ (change run).device = run.device) :
    (((rows.map change).filter fun run => run.state.live).map fun run => (run.jobId, run.device)).Sublist
      ((rows.filter fun run => run.state.live).map fun run => (run.jobId, run.device)) := by
  induction rows with
  | nil => exact List.Sublist.refl _
  | cons run rows inductionHypothesis =>
      have rest := inductionHypothesis fun other member => same other (List.mem_cons_of_mem _ member)
      rw [List.map_cons, List.filter_cons]
      split
      · next live =>
        obtain ⟨alive, job, device⟩ := same run List.mem_cons_self live
        have kept : (run :: rows).filter (fun run => run.state.live) =
            run :: rows.filter fun run => run.state.live := List.filter_cons_of_pos alive
        rw [kept, List.map_cons, List.map_cons, job, device]
        exact rest.cons_cons _
      · refine rest.trans ?_
        exact ((List.sublist_cons_self run rows).filter _).map _

theorem present_setState {job : JobId} {run : Run} (found : machine.runs.find job = some run)
    (live : run.state.live = true) (state : UnitState) :
    (machine.setState job state).present.Sublist machine.present := by
  refine present_sublist machine.runs.rows _ fun other member shown => ?_
  by_cases mine : other.jobId = job
  · subst mine
    have same := (Table.find_of_mem member).symm.trans found
    cases same
    exact ⟨live, by simp, by simp⟩
  · have kept : decide (other.jobId = job) = false := decide_eq_false mine
    simp only [kept] at shown ⊢
    exact ⟨shown, rfl, rfl⟩

theorem present_unload (machine : Machine) (job : JobId) : (machine.unload job).present.Sublist machine.present :=
  (List.filter_sublist.filter _).map _

/-- Whatever a run does by itself, no job is there afterwards that was not before. -/
theorem present_happen (machine : Machine) (event : JobId × Happening) :
    (machine.happen event).present.Sublist machine.present := by
  unfold Machine.happen
  cases found : machine.runs.find event.1 with
  | none => exact List.Sublist.refl _
  | some run =>
      simp only
      split
      · exact List.Sublist.refl _
      · next shown =>
        have live : run.state.live = true := by simpa using shown
        split
        · split
          · exact present_setState found live _
          · exact List.Sublist.refl _
        · exact List.Sublist.refl _
        · exact List.Sublist.refl _
        · exact List.Sublist.refl _
        · unfold Machine.exit
          have mine : run.jobId = event.1 := Table.find_key found
          split
          · exact present_setState (mine ▸ found) live _
          · exact present_unload machine run.jobId
        · exact present_setState found live _
        · exact present_setState found live _
        · split
          · exact present_unload machine _
          · exact List.Sublist.refl _

theorem present_happened (events : List (JobId × Happening)) (machine : Machine) :
    (events.foldl Machine.happen machine).present.Sublist machine.present := by
  induction events generalizing machine with
  | nil => exact List.Sublist.refl _
  | cons event events inductionHypothesis => exact (inductionHypothesis _).trans (present_happen machine event)

/-- A run is started where there is none of its job, and its job is there then. -/
theorem present_start (machine : Machine) {run : Run} (live : run.state.live = true) :
    (machine.start run).present = machine.present ∨
      (∀ card, (run.jobId, card) ∉ machine.present) ∧
        (machine.start run).present = machine.present ++ [(run.jobId, run.device)] := by
  unfold Machine.start
  cases inserted : machine.runs.insert run with
  | none => exact Or.inl rfl
  | some runs =>
      obtain ⟨fresh, rows⟩ := Table.insert_eq_some inserted
      refine Or.inr ⟨fun card member => ?_, ?_⟩
      · obtain ⟨other, inside, same⟩ := List.mem_map.mp member
        have mine : other.jobId = run.jobId := congrArg Prod.fst same
        exact Table.find_eq_none.mp fresh (mine ▸ List.mem_map_of_mem (List.mem_filter.mp inside).1)
      · unfold present
        simp only [rows]
        rw [List.filter_append, List.filter_singleton, live, List.map_append]
        rfl

/-- The jobs on a card are those of one job and those beside it. -/
theorem others_of_absent {job : JobId} (absent : ∀ card, (job, card) ∉ machine.present) (device : Int) :
    machine.others job device = (machine.liveOn device).length := by
  rw [liveOn_length]
  unfold others
  refine List.countP_congr fun live member => ?_
  have other : live.1 ≠ job := fun same => absent live.2 (same ▸ member)
  simp [other]

/-- The jobs beside one are the same when it is started. -/
theorem others_start (machine : Machine) {run : Run} (live : run.state.live = true) (device : Int) :
    (machine.start run).others run.jobId device = machine.others run.jobId device := by
  unfold others
  rcases present_start machine live with same | ⟨_, grown⟩
  · rw [same]
  · rw [grown, List.countP_append, List.countP_singleton, if_neg (by simp), Nat.add_zero]

/-- Where there is room beside the other jobs of its card, a job may be started. -/
theorem start_fits {run : Run} {limit : Nat} (live : run.state.live = true)
    (fits : ∀ device, (machine.liveOn device).length ≤ limit)
    (room : machine.others run.jobId run.device < limit) (device : Int) :
    ((machine.start run).liveOn device).length ≤ limit := by
  have before := fits device
  rw [liveOn_length] at before ⊢
  rcases present_start machine live with same | ⟨absent, grown⟩
  · rw [same]
    exact before
  · rw [grown, List.countP_append, List.countP_singleton]
    split
    · next mine =>
      have mine : run.device = device := by simpa using mine
      rw [others_of_absent absent, mine, liveOn_length] at room
      exact room
    · exact before

end Machine

/-! ### The pool -/

/-- No job is on a machine that was not there before. -/
def Sheds (before after : Pool) : Prop :=
  ∀ hostname, (after.machines hostname).present.Sublist (before.machines hostname).present

/-- No card has more jobs than it may. -/
def Pool.Fits (limit : Nat) (pool : Pool) : Prop :=
  ∀ hostname device, ((pool.machines hostname).liveOn device).length ≤ limit

variable {conditions : Conditions} {pool before after : Pool} {limit : Nat}

theorem Pool.Fits.sheds (fits : before.Fits limit) (sheds : Sheds before after) : after.Fits limit := by
  intro hostname device
  have here := fits hostname device
  rw [Machine.liveOn_length] at here ⊢
  exact (sheds hostname).countP_le.trans here

theorem sheds_arrived (conditions : Conditions) (pool : Pool) : Sheds pool (pool.arrived conditions) :=
  fun _ => Machine.present_happened _ _

/-- What an attempt leaves of each machine. -/
theorem tried_machines (conditions : Conditions) (pool : Pool) (sent : Sent) (hostname : String) :
    (pool.tried conditions sent).machines hostname =
      if (conditions.attempts pool.attempts).took ∧ hostname = sent.hostname then
        ((pool.arrived conditions).machines hostname).effect (conditions.facts pool.attempts hostname) sent.command
      else (pool.arrived conditions).machines hostname := by
  unfold Pool.tried
  cases took : (conditions.attempts pool.attempts).took with
  | false => rfl
  | true =>
      by_cases here : hostname = sent.hostname
      · subst here
        exact (Function.update_self _ _ _).trans (if_pos ⟨rfl, rfl⟩).symm
      · exact (Function.update_of_ne here _ _).trans (if_neg fun both => here both.2).symm

/-- A command that starts nothing leaves no job that was not there before. -/
theorem sheds_tried {sent : Sent} (plain : sent.command.starts = false) (pool : Pool) :
    Sheds pool (pool.tried conditions sent) := by
  intro hostname
  refine List.Sublist.trans ?_ (sheds_arrived conditions pool hostname)
  rw [tried_machines]
  split
  · unfold Machine.effect
    cases asked : sent.command with
    | launch run =>
        rw [asked] at plain
        cases plain
    | stopUnit job =>
        simp only
        split
        · exact Machine.present_unload _ _
        · exact List.Sublist.refl _
    | _ => exact List.Sublist.refl _
  · exact List.Sublist.refl _

/-- Is a listing answered, at the second attempt at the latest, and does what is read of it name the cards of the
jobs that are there, one for one? -/
def showsLive (conditions : Conditions) (sent : Sent) (pool : Pool) : Bool :=
  match sent.command with
  | .listLiveJobs _ =>
      match pool.hears conditions sent with
      | .result result =>
          ((parseLiveJobs result.stdout).map LocalBackend.cardOf).isPerm
            (((pool.arrived conditions).machines sent.hostname).present.map fun live => some live.2)
      | .failed _ => false
      | .broken _ => !sent.again
  | _ => true

/-- The contract of the calls of a process that is alone, under which no card gets more jobs than it may: an access
starts nothing. -/
def sharing (limit : Nat) (allowed : Sent → Pool → Prop) : Contract Pool Sent String where
  rely := fun before after => after = before
  guarantee := fun _ before after => Sheds before after
  invariant := fun pool => pool.Filed ∧ pool.Fits limit
  allowed := allowed
  raises := fun _ => True
  refl := fun _ => rfl
  trans := fun first second => second.trans first

theorem carries_sharing (conditions : Conditions) (limit : Nat) (allowed : Sent → Pool → Prop) :
    Carries conditions (sharing limit allowed) where
  alone := fun _ _ same => same
  raises := fun _ => trivial
  filed := fun _ kept => kept.1
  notes := fun before after noted kept => by
    have sheds : Sheds before after := fun hostname => by rw [noted.machines]
    exact ⟨⟨noted.filed kept.1, kept.2.sheds sheds⟩, sheds⟩
  tries := fun pool sent plain kept _ =>
    ⟨⟨tried_filed kept.1 sent, kept.2.sheds (sheds_tried plain pool)⟩, sheds_tried plain pool⟩

/-! ### Launches -/

/-- The contract of what a launch does before it starts the job, when it is shown the live jobs. -/
abbrev shown (conditions : Conditions) (limit : Nat) : Contract Pool Sent String :=
  sharing limit fun sent pool => showsLive conditions sent pool = true

/-- What is read of a listing names the cards of the jobs on a machine, one for one. -/
def Names (live : List Fields) (machine : Machine) : Prop :=
  (live.map LocalBackend.cardOf).Perm (machine.present.map fun each => some each.2)

section Blocks

variable {backend : LocalBackend} {hostname : String}

namespace LocalBackend

/-- What an attempt to list the live jobs is heard as. -/
theorem attempt_shown (root : Text) (again : Bool) :
    (Lab.attempt conditions ⟨hostname, .listLiveJobs root, again⟩).Safe (shown conditions limit)
      (fun heard last => match heard with
        | .result result => Names (parseLiveJobs result.stdout) (last.machines hostname)
        | .failed _ => False
        | .broken _ => again = false) pool := by
  intro current moved kept permitted
  have shows : showsLive conditions ⟨hostname, .listLiveJobs root, again⟩ current = true := permitted _ rfl
  obtain ⟨invariant, owed⟩ := (carries_sharing conditions limit _).tries current
    ⟨hostname, .listLiveJobs root, again⟩ rfl kept shows
  refine ⟨invariant, owed, ?_⟩
  rintro last rfl _
  unfold showsLive at shows
  simp only at shows ⊢
  cases heard : current.hears conditions ⟨hostname, .listLiveJobs root, again⟩ with
  | failed text =>
      rw [heard] at shows
      cases shows
  | broken text =>
      rw [heard] at shows
      simpa using shows
  | result result =>
      rw [heard] at shows
      have left : (current.tried conditions ⟨hostname, .listLiveJobs root, again⟩).machines hostname =
          (current.arrived conditions).machines hostname := by
        rw [tried_machines]
        split
        · rfl
        · rfl
      show Names _ ((current.tried conditions _).machines hostname)
      rw [left]
      exact List.isPerm_iff.mp shows

theorem transport_shown (root : Text) :
    (Lab.transport conditions hostname (.listLiveJobs root)).Safe (shown conditions limit)
      (fun answer last => ∃ result, answer = .ok result ∧
        Names (parseLiveJobs result.stdout) (last.machines hostname)) pool := by
  refine (attempt_shown root false).bind fun heard current _ said => ?_
  cases heard with
  | result result => exact Program.Safe.pure fun _ moved _ => moved ▸ ⟨result, rfl, said⟩
  | failed text => exact said.elim
  | broken text =>
      refine (attempt_shown root true).bind fun heard last _ said => ?_
      cases heard with
      | result result => exact Program.Safe.pure fun _ moved _ => moved ▸ ⟨result, rfl, said⟩
      | failed text => exact said.elim
      | broken text => cases said

/-- What is read of a listing names the cards of the jobs that are there. -/
theorem liveOn_shown (configured : hostname ∈ backend.config.hosts) :
    (backend.liveOn conditions hostname).Safe (shown conditions limit)
      (fun live last => Names live (last.machines hostname)) pool := by
  have carries := carries_sharing conditions limit fun sent pool => showsLive conditions sent pool = true
  unfold LocalBackend.liveOn
  rw [if_neg (not_not.mpr configured)]
  refine ((carries.recollect _).bind fun _ _ _ _ => Carries.done _).bind fun root _ _ _ => ?_
  refine (transport_shown root).bind fun answer last _ said => ?_
  obtain ⟨result, rfl, names⟩ := said
  exact Program.Safe.pure fun _ moved _ => moved ▸ names

/-- A host with room has fewer jobs than its cards may have together. -/
theorem freeOn_shown {health : HostHealth} (configured : health.hostname ∈ backend.config.hosts) :
    (backend.freeOn conditions health).Safe (shown conditions limit)
      (fun free last => 0 < free →
        (last.machines health.hostname).present.length < health.gpuCount * backend.config.maxJobsPerGpu) pool := by
  refine (liveOn_shown configured).bind fun live last _ names => Program.Safe.pure fun current moved _ room => ?_
  have counted : live.length = (current.machines health.hostname).present.length := by
    rw [moved]
    simpa using names.length_eq
  omega

/-- What is read of hosts one after another holds of each of them in the end. -/
theorem rooms_shown {usable : List HostHealth} (kept : (shown conditions limit).invariant pool)
    (configured : ∀ health ∈ usable, health.hostname ∈ backend.config.hosts) :
    (usable.mapM fun health => do
        let free ← backend.freeOn conditions health
        pure (free, health) : Ssh (List (Nat × HostHealth))).Safe (shown conditions limit)
      (fun entries last => ∀ entry ∈ entries, ∃ health ∈ usable, entry.2 = health ∧
        (0 < entry.1 → (last.machines health.hostname).present.length <
          health.gpuCount * backend.config.maxJobsPerGpu)) pool := by
  refine Program.Safe.mapM (fun _ _ before after moved holds => ?_)
    (fun _ _ _ _ _ sheds holds => ⟨holds.1, fun free => (sheds _).length_le.trans_lt (holds.2 free)⟩)
    (fun health member state _ => ?_) kept
  · have same : after = before := moved
    exact same ▸ holds
  · exact (freeOn_shown (configured health member)).bind fun free last _ room =>
      Program.Safe.pure fun _ moved _ => moved ▸ ⟨rfl, room⟩

/-- The host of a launch is a configured one with room. -/
theorem pickHost_shown (job : Job) :
    (backend.pickHost conditions job).Safe (shown conditions limit)
      (fun health last => health.hostname ∈ backend.config.hosts ∧ Apart health.gpus ∧
        (last.machines health.hostname).present.length < health.gpuCount * backend.config.maxJobsPerGpu) pool := by
  have carries := carries_sharing conditions limit fun sent pool => showsLive conditions sent pool = true
  unfold LocalBackend.pickHost
  split
  · exact carries.fail _ _
  · refine (carries.health false).bind fun all _ kept proper => ?_
    split
    · exact carries.fail _ _
    · simp only
      split
      · exact carries.fail _ _
      · have usable : ∀ health ∈ all.filter (fun health => health.state.acceptsJobs),
            health.hostname ∈ backend.config.hosts ∧ Apart health.gpus := by
          intro health member
          obtain ⟨hostname, configured, found⟩ := proper health (List.mem_filter.mp member).1
          exact ⟨found.named ▸ configured, found.apart⟩
        refine (rooms_shown kept fun health member => (usable health member).1).bind fun free last _ found => ?_
        split
        · exact carries.fail _ _
        · next best first =>
          have member := List.mem_filter.mp (List.mem_mergeSort.mp (List.mem_of_mem_head? first))
          obtain ⟨health, listed, rfl, room⟩ := found best member.1
          exact Program.Safe.pure fun _ moved _ => moved ▸
            ⟨(usable _ listed).1, (usable _ listed).2, room (by simpa using member.2)⟩

/-- The card of a launch has room. -/
theorem pickDevice_shown {health : HostHealth} (configured : health.hostname ∈ backend.config.hosts)
    (apart : Apart health.gpus) (few : (pool.machines health.hostname).present.length <
      health.gpuCount * backend.config.maxJobsPerGpu) :
    (backend.pickDevice conditions health).Safe (shown conditions limit)
      (fun device last => ((last.machines health.hostname).liveOn device).length < backend.config.maxJobsPerGpu)
      pool := by
  have read : (backend.liveOn conditions health.hostname).Safe (shown conditions limit)
      (fun live last => Names live (last.machines health.hostname) ∧
        (last.machines health.hostname).present.length < health.gpuCount * backend.config.maxJobsPerGpu) pool := by
    refine (liveOn_shown configured).carrying (fun before after moved holds => ?_)
      (fun _ _ _ sheds holds => (sheds _).length_le.trans_lt holds) few
    have same : after = before := moved
    exact same ▸ holds
  refine read.bind fun live last _ both => Program.Safe.pure fun current moved _ => ?_
  have same : current = last := moved
  subst same
  have cards : (live.filterMap cardOf).Perm ((current.machines health.hostname).present.map Prod.snd) := by
    have listed := both.1.filterMap id
    rw [List.filterMap_map, List.filterMap_map] at listed
    simpa [Function.comp_def] using listed
  have fewer : (live.filterMap cardOf).length < health.gpus.length * backend.config.maxJobsPerGpu := by
    rw [cards.length_eq, List.length_map]
    exact both.2
  obtain ⟨best, least, room⟩ := loads_room apart fewer
  rw [least, Option.map_some, Option.getD_some, Machine.liveOn_length]
  rw [cards.count_eq, List.count_eq_countP, List.countP_map] at room
  exact room

end LocalBackend

/-- The contract of a launch that is shown the live jobs. -/
abbrev launching (conditions : Conditions) (limit : Nat) : Contract Pool Sent String :=
  { shown conditions limit with guarantee := fun _ _ _ => True }

/-- An attempt to start a job leaves room beside the other jobs of its card. -/
theorem attempt_starts {run : Run} (live : run.state.live = true) (again : Bool)
    (room : (pool.machines hostname).others run.jobId run.device < limit) :
    (Lab.attempt conditions ⟨hostname, .launch run, again⟩).Safe (launching conditions limit)
      (fun _ last => (last.machines hostname).others run.jobId run.device < limit) pool := by
  intro current moved kept _
  have same : current = pool := moved
  subst same
  have sheds := sheds_arrived conditions current
  have fits := kept.2.sheds sheds
  have beside : ((current.arrived conditions).machines hostname).others run.jobId run.device < limit :=
    (sheds hostname).countP_le.trans_lt room
  refine ⟨⟨tried_filed kept.1 _, fun other device => ?_⟩, trivial, fun last same _ => ?_⟩
  · rw [tried_machines]
    split
    · next both =>
      obtain ⟨_, rfl⟩ := both
      unfold Machine.effect
      simp only
      split
      · exact Machine.start_fits live (fits _) beside device
      · exact fits _ device
    · exact fits _ device
  · have same : last = current.tried conditions ⟨hostname, .launch run, again⟩ := same
    rw [same]
    show ((current.tried conditions _).machines hostname).others _ _ < limit
    rw [tried_machines]
    split
    · unfold Machine.effect
      simp only
      split
      · rw [Machine.others_start _ live]
        exact beside
      · exact beside
    · exact beside

/-- A job is started where there is room beside the other jobs of its card. -/
theorem insist_starts {run : Run} (live : run.state.live = true)
    (room : (pool.machines hostname).others run.jobId run.device < limit) :
    (Lab.insist conditions hostname (.launch run)).Safe (launching conditions limit) (fun _ _ => True) pool := by
  have transport : (Lab.transport conditions hostname (.launch run)).Safe (launching conditions limit)
      (fun _ _ => True) pool := by
    refine (attempt_starts live false room).bind fun heard current _ beside => ?_
    cases heard with
    | result | failed => exact Carries.done _
    | broken text =>
        refine (attempt_starts live true beside).bind fun heard _ _ _ => ?_
        cases heard with
        | result | failed | broken => exact Carries.done _
  refine transport.bind fun answer _ _ _ => ?_
  cases answer with
  | ok result => exact Carries.done _
  | error text => exact Program.Safe.fail trivial

/-- What starts nothing leaves the room that there is. -/
theorem room_kept {α : Type} {program : Ssh α} {post : α → Pool → Prop} {job : JobId} {device : Int}
    (safe : program.Safe (shown conditions limit) post pool)
    (room : (pool.machines hostname).others job device < limit) :
    program.Safe (launching conditions limit)
      (fun _ last => (last.machines hostname).others job device < limit) pool := by
  have carried : program.Safe (shown conditions limit)
      (fun result last => post result last ∧ (last.machines hostname).others job device < limit) pool := by
    refine safe.carrying (fun before after moved holds => ?_)
      (fun _ _ _ sheds holds => (sheds hostname).countP_le.trans_lt holds) room
    have same : after = before := moved
    exact same ▸ holds
  exact (carried.relax fun _ _ _ _ => trivial).weaken fun _ _ _ both => both.2

/-- A launch that is shown the live jobs leaves no card with more jobs than it may have. -/
theorem launch_fits (job : Job) :
    (backend.launch conditions job).Safe (launching conditions backend.config.maxJobsPerGpu)
      (fun _ _ => True) pool := by
  have carries := carries_sharing conditions backend.config.maxJobsPerGpu
    fun sent pool => showsLive conditions sent pool = true
  refine ((LocalBackend.pickHost_shown job).relax fun _ _ _ _ => trivial).bind fun health _ _ found => ?_
  obtain ⟨configured, apart, few⟩ := found
  refine ((LocalBackend.pickDevice_shown configured apart few).relax fun _ _ _ _ => trivial).bind
    fun device current _ room => ?_
  have beside : (current.machines health.hostname).others job.jobId device < backend.config.maxJobsPerGpu := by
    rw [Machine.liveOn_length] at room
    exact (List.countP_mono_left fun live _ both => by simp_all).trans_lt room
  refine (room_kept (carries.ensureMps health) beside).bind fun _ _ _ beside => ?_
  refine (room_kept carries.now beside).bind fun now _ _ beside => ?_
  refine (insist_starts rfl beside).bind fun result _ _ _ => ?_
  split
  · exact Program.Safe.fail trivial
  · exact Carries.done _

end Blocks

/-! ### Runs -/

/-- Is every launch of some calls shown the live jobs? -/
def LaunchesShown (backend : LocalBackend) (conditions : Conditions) : List (Call × Nat) → Pool → Prop
  | [], _ => True
  | (call, length) :: rest, pool =>
      (call.launches = true → Program.Allowed (fun sent pool => showsLive conditions sent pool = true) length
        (call.program backend conditions) pool) ∧
      LaunchesShown backend conditions rest (Program.run length (call.program backend conditions) pool).2

instance decidableLaunchesShown (backend : LocalBackend) (conditions : Conditions) :
    ∀ entries pool, Decidable (LaunchesShown backend conditions entries pool)
  | [], _ => isTrue trivial
  | (call, length) :: rest, pool =>
      have : Decidable (LaunchesShown backend conditions rest
          (Program.run length (call.program backend conditions) pool).2) :=
        decidableLaunchesShown backend conditions _ _
      inferInstanceAs (Decidable (_ ∧ _))

variable {backend : LocalBackend}

/-- A call leaves no card with more jobs than it may have, wherever it stops. -/
theorem call_fits {call : Call} {length : Nat}
    (kept : pool.Filed ∧ pool.Fits backend.config.maxJobsPerGpu)
    (listed : call.launches = true → Program.Allowed (fun sent pool => showsLive conditions sent pool = true)
      length (call.program backend conditions) pool) :
    (Program.run length (call.program backend conditions) pool).2.Filed ∧
      (Program.run length (call.program backend conditions) pool).2.Fits backend.config.maxJobsPerGpu := by
  cases launches : call.launches with
  | false =>
      have carries := carries_sharing conditions backend.config.maxJobsPerGpu fun _ _ => True
      exact ((carries.call launches).run kept (Program.allowed_always (fun _ _ => trivial) _ _ _)).1
  | true =>
      cases call with
      | launch job => exact (((launch_fits job).bind fun _ _ _ _ => Carries.done _).run kept (listed launches)).1
      | _ => cases launches

/-- No card has more jobs than it may, whatever calls are made, when each launch is shown the live jobs. -/
theorem cards_within (backend : LocalBackend) (conditions : Conditions) (entries : List (Call × Nat))
    (shown : LaunchesShown backend conditions entries Pool.new) (hostname : String) (device : Int) :
    (((Program.sequence (calls backend conditions entries) Pool.new).machines hostname).liveOn device).length ≤
      backend.config.maxJobsPerGpu := by
  have run : ∀ (entries : List (Call × Nat)) (pool : Pool),
      pool.Filed ∧ pool.Fits backend.config.maxJobsPerGpu → LaunchesShown backend conditions entries pool →
        (Program.sequence (calls backend conditions entries) pool).Fits backend.config.maxJobsPerGpu := by
    intro entries
    induction entries with
    | nil => exact fun pool kept _ => kept.2
    | cons entry entries inductionHypothesis =>
        exact fun pool kept listed => inductionHypothesis _ (call_fits kept listed.1) listed.2
  have start : Pool.new.Filed ∧ Pool.new.Fits backend.config.maxJobsPerGpu := ⟨nofun, fun _ _ => Nat.zero_le _⟩
  exact run entries Pool.new start shown hostname device

/-- The broker launches three jobs. -/
def launchedThree : List (Call × Nat) :=
  [(.launch (Job.forLab "job-1"), 100), (.launch (Job.forLab "job-2"), 100), (.launch (Job.forLab "job-3"), 100)]

example : launchedThree.length = 3 := by decide +kernel

/-- The first two jobs begin before the next one is launched. -/
def Conditions.beginning : Conditions :=
  .calm fun number =>
    if number = 7 then [("job-1", .began), ("job-1", .tagged)]
    else if number = 10 then [("job-2", .began), ("job-2", .tagged)]
    else []

/-- The command of a number fails where they begin. -/
def Conditions.failing (number : Nat) : Conditions :=
  { Conditions.beginning with
    attempts := fun current => if current = number then .failed "timed out" false else .answered }

/-- A third job is not put on a card that has the two it may have, when the launch is shown them. -/
theorem cards_within_three :
    (((Program.sequence (calls .usual .beginning launchedThree) Pool.new).machines "lab-1").liveOn 0).length ≤ 2 := by
  have shown : LaunchesShown .usual .beginning launchedThree Pool.new := by decide +kernel
  exact cards_within .usual .beginning launchedThree shown "lab-1" 0

/-- A third job is put on a card that has the two it may have, when the listing that a launch reads of it fails. -/
theorem third_shares :
    (((Program.sequence (calls .usual (.failing 10) launchedThree) Pool.new).machines "lab-1").liveOn 0).length = 3 ∧
      LocalBackend.usual.config.maxJobsPerGpu = 2 := by
  refine ⟨?_, rfl⟩
  decide +kernel

end Lab

end GpuBroker.Broker
