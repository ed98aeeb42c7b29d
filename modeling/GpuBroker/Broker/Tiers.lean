/-
This file is the tiers a job goes through: the backend placement chooses for it,
and the tiers preemptions pin it to.

Placement walks the backends tier by tier and takes the first that can run the
job, so what it comes to is a list of backends passed over, each for a reason of
its own, and one after them. A preemption that saved nothing pins the job to a
tier that stands behind the one it counts as being on.
-/
import GpuBroker.Broker.Turns
import GpuBroker.Broker.Completions

namespace GpuBroker.Broker

open Library

variable {γ α : Type}

/-! ### The backend that is chosen -/

/-- The tiers of placement, in order. -/
def BrokerConfig.tiers (config : BrokerConfig) : List String :=
  if config.placementOrder.isEmpty then ["local", "spot", "ondemand"] else config.placementOrder

/-- The backends placement asks for a job, in the order it asks them. -/
def Site.candidates (site : Site γ) (config : BrokerConfig) (job : Job) : List (Backend γ) :=
  (tiersFor config job).flatMap fun tier => site.backends.filter fun backend => backend.tierOf = tier

/-- A backend bills in a currency and has a kind of GPU. -/
structure Backend.Suits (backend : Backend γ) (currency : Currency) (gpuType : String) : Prop where
  bills : backend.currency = currency
  offers : backend.supports gpuType = true

/-- What is said of a backend that bills in another currency. -/
def foreignText (billed priced : Currency) (gpuType : String) : String :=
  let billed := currencyText billed
  let priced := currencyText priced
  s!"bills in {billed}, {gpuType} is priced in {priced}"

/-- A list of backends that are passed over, with what is said of each; those that would suit are asked
for room, and have none. -/
inductive PassedOver (currency : Currency) (gpuType : String) :
    List (Backend γ) → γ → List (String × String) → γ → Prop
  | none (cloud : γ) : PassedOver currency gpuType [] cloud [] cloud
  | foreign {backend : Backend γ} {backends : List (Backend γ)} {cloud last : γ}
      {skipped : List (String × String)} (bills : backend.currency ≠ currency)
      (rest : PassedOver currency gpuType backends cloud skipped last) :
      PassedOver currency gpuType (backend :: backends) cloud
        ((backend.name, foreignText backend.currency currency gpuType) :: skipped) last
  | lacking {backend : Backend γ} {backends : List (Backend γ)} {cloud last : γ}
      {skipped : List (String × String)} (bills : backend.currency = currency)
      (offers : backend.supports gpuType = false)
      (rest : PassedOver currency gpuType backends cloud skipped last) :
      PassedOver currency gpuType (backend :: backends) cloud
        ((backend.name, s!"has no {gpuType}") :: skipped) last
  | full {backend : Backend γ} {backends : List (Backend γ)} {cloud last : γ}
      {skipped : List (String × String)} {free : Int} (suits : backend.Suits currency gpuType)
      (answer : (backend.freeSlots gpuType cloud).1 = .ok free) (room : free ≤ 0)
      (rest : PassedOver currency gpuType backends (backend.freeSlots gpuType cloud).2 skipped last) :
      PassedOver currency gpuType (backend :: backends) cloud
        ((backend.name, s!"no free {gpuType} right now") :: skipped) last

/-- A backend that suits and has room, behind backends that are all passed over. -/
structure Foremost (currency : Currency) (gpuType : String) (backends : List (Backend γ))
    (placement : Placement γ) (cloud last : γ) : Prop where
  behind : ∃ before after middle, backends = before ++ placement.backend :: after ∧
    PassedOver currency gpuType before cloud placement.skipped middle ∧
    placement.backend.freeSlots gpuType middle = (.ok placement.free, last)
  suits : placement.backend.Suits currency gpuType
  room : 0 < placement.free
  tier : placement.tier = placement.backend.tierOf

/-- What a search comes to, with nothing said of any backend yet. -/
def Searched (currency : Currency) (gpuType : String) (backends : List (Backend γ)) (cloud last : γ) :
    Option (Placement γ) → Prop
  | none => ∃ skipped, PassedOver currency gpuType backends cloud skipped last
  | some placement => Foremost currency gpuType backends placement cloud last

/-- A placement of which more backends were passed over before. -/
def Placement.after (said : List (String × String)) (placement : Placement γ) : Placement γ :=
  { placement with skipped := said ++ placement.skipped }

variable {currency : Currency} {gpuType : String} {backend : Backend γ} {backends : List (Backend γ)}
  {said : List (String × String)} {world next : World γ}

/-- One backend of a search. -/
theorem whole_firstFree_cons :
    (firstFree currency gpuType (backend :: backends) said).whole world =
      if backend.currency ≠ currency then
        (firstFree currency gpuType backends
          (said ++ [(backend.name, foreignText backend.currency currency gpuType)])).whole world
      else if !backend.supports gpuType then
        (firstFree currency gpuType backends
          (said ++ [(backend.name, s!"has no {gpuType}")])).whole world
      else
        match (backend.freeSlots gpuType world.cloud).1 with
        | .error detail =>
            (.error (.backend detail), world.called (backend.freeSlots gpuType world.cloud).2)
        | .ok free =>
            if free ≤ 0 then
              (firstFree currency gpuType backends
                (said ++ [(backend.name, s!"no free {gpuType} right now")])).whole
                (world.called (backend.freeSlots gpuType world.cloud).2)
            else
              (.ok (some { backend, tier := backend.tierOf, free, skipped := said }),
                world.called (backend.freeSlots gpuType world.cloud).2) := by
  conv_lhs => unfold firstFree
  simp only
  split
  · rfl
  · split
    · rfl
    · rw [externally_bind, whole_external]
      cases (backend.freeSlots gpuType world.cloud).1 with
      | error detail => rfl
      | ok free =>
          simp only
          split <;> rfl

/-- A search goes on behind what it passes over. -/
theorem whole_passedOver {before : List (Backend γ)} {cloud middle : γ} {skipped : List (String × String)}
    (passed : PassedOver currency gpuType before cloud skipped middle) (here : world.cloud = cloud) :
    (firstFree currency gpuType (before ++ backends) said).whole world =
      (firstFree currency gpuType backends (said ++ skipped)).whole (world.called middle) := by
  induction passed generalizing said world with
  | none cloud =>
      subst here
      rw [List.append_nil]
      rfl
  | foreign bills rest inductionHypothesis =>
      rw [List.cons_append, whole_firstFree_cons, if_pos bills, inductionHypothesis here,
        List.append_assoc, List.singleton_append]
  | lacking bills offers rest inductionHypothesis =>
      rw [List.cons_append, whole_firstFree_cons, if_neg (not_not_intro bills), if_pos (by rw [offers]; rfl),
        inductionHypothesis here, List.append_assoc, List.singleton_append]
  | full suits answer room rest inductionHypothesis =>
      subst here
      rw [List.cons_append, whole_firstFree_cons, if_neg (not_not_intro suits.bills),
        if_neg (by rw [suits.offers]; decide), answer]
      simp only
      rw [if_pos room, inductionHypothesis rfl, List.append_assoc, List.singleton_append]
      rfl

/-- A search comes to what it is to come to. -/
theorem whole_of_searched {last : γ} {found : Option (Placement γ)}
    (searched : Searched currency gpuType backends world.cloud last found) :
    (firstFree currency gpuType backends said).whole world =
      (.ok (found.map (.after said)), world.called last) := by
  cases found with
  | none =>
      obtain ⟨skipped, passed⟩ := searched
      have whole : (firstFree currency gpuType (backends ++ []) said).whole world = _ :=
        whole_passedOver passed rfl
      rw [List.append_nil] at whole
      exact whole
  | some placement =>
      obtain ⟨⟨before, after, middle, rfl, passed, answer⟩, suits, room, tier⟩ := searched
      rw [whole_passedOver passed rfl, whole_firstFree_cons, if_neg (not_not_intro suits.bills),
        if_neg (by rw [suits.offers]; decide)]
      have asked : placement.backend.freeSlots gpuType (world.called middle).cloud =
          (.ok placement.free, last) := answer
      rw [asked]
      simp only
      rw [if_neg (not_le.mpr room), ← tier]
      rfl

/-- One more backend is passed over before a search. -/
theorem Searched.past {cloud following last : γ} {found : Option (Placement γ)} {why : String}
    (searched : Searched currency gpuType backends following last found)
    (passes : ∀ before skipped middle, PassedOver currency gpuType before following skipped middle →
      PassedOver currency gpuType (backend :: before) cloud ((backend.name, why) :: skipped) middle) :
    Searched currency gpuType (backend :: backends) cloud last
      (found.map (.after [(backend.name, why)])) := by
  cases found with
  | none =>
      obtain ⟨skipped, passed⟩ := searched
      exact ⟨_, passes _ _ _ passed⟩
  | some placement =>
      obtain ⟨⟨before, after, middle, rfl, passed, answer⟩, suits, room, tier⟩ := searched
      exact ⟨⟨backend :: before, after, middle, rfl, passes _ _ _ passed, answer⟩, suits, room, tier⟩

theorem Placement.after_after (more : List (String × String)) (found : Option (Placement γ)) :
    (found.map (Placement.after more)).map (Placement.after said) =
      found.map (Placement.after (said ++ more)) := by
  cases found with
  | none => rfl
  | some placement => simp [Placement.after]

/-- What a search comes to is what it is to come to, and only the capacity has changed. -/
theorem searched_of_whole {chosen : Option (Placement γ)}
    (came : (firstFree currency gpuType backends said).whole world = (.ok chosen, next)) :
    ∃ found, chosen = found.map (.after said) ∧ next = world.called next.cloud ∧
      Searched currency gpuType backends world.cloud next.cloud found := by
  induction backends generalizing said world with
  | nil =>
      cases came
      exact ⟨none, rfl, rfl, [], .none _⟩
  | cons backend backends inductionHypothesis =>
      rw [whole_firstFree_cons] at came
      split at came
      · next bills =>
        obtain ⟨found, rfl, same, searched⟩ := inductionHypothesis came
        exact ⟨_, (Placement.after_after _ _).symm, same,
          searched.past fun _ _ _ passed => .foreign bills passed⟩
      · next bills =>
        have bills := not_not.mp bills
        split at came
        · next lacks =>
          obtain ⟨found, rfl, same, searched⟩ := inductionHypothesis came
          have offers : backend.supports gpuType = false := by simpa using lacks
          exact ⟨_, (Placement.after_after _ _).symm, same,
            searched.past fun _ _ _ passed => .lacking bills offers passed⟩
        · next offers =>
          have suits : backend.Suits currency gpuType := ⟨bills, by simpa using offers⟩
          cases asked : backend.freeSlots gpuType world.cloud with
          | mk answer later =>
              rw [asked] at came
              cases answer with
              | error detail => cases came
              | ok free =>
                  simp only at came
                  split at came
                  · next full =>
                    obtain ⟨found, rfl, same, searched⟩ := inductionHypothesis came
                    refine ⟨_, (Placement.after_after _ _).symm, same,
                      searched.past fun _ _ _ passed => .full suits (by rw [asked]) full ?_⟩
                    rw [asked]
                    exact passed
                  · next room =>
                    cases came
                    refine ⟨some { backend, tier := backend.tierOf, free, skipped := [] },
                      congrArg some (by simp [Placement.after]), rfl, ?_⟩
                    exact ⟨⟨[], backends, world.cloud, rfl, .none _, asked⟩, suits, not_le.mp room, rfl⟩

/-- Placement chooses the first backend, tier by tier, that bills in the currency of the job's GPU, has
it and has room, and none when each of them is passed over. -/
theorem choose_iff {site : Site γ} {job : Job} {gpu : GpuType} {chosen : Option (Placement γ)}
    (known : world.config.gpu job.gpuType = .ok gpu) :
    (choose site job).whole world = (.ok chosen, next) ↔
      next = world.called next.cloud ∧
        Searched gpu.currency job.gpuType (site.candidates world.config job) world.cloud next.cloud
          chosen := by
  have unfolded : (choose site job).whole world =
      (firstFree gpu.currency job.gpuType (site.candidates world.config job) []).whole world := by
    unfold choose
    rw [whole_settings, known]
    rfl
  have same : ∀ found : Option (Placement γ), found.map (.after []) = found := fun found => by
    cases found <;> rfl
  rw [unfolded]
  constructor
  · intro came
    obtain ⟨found, rfl, called, searched⟩ := searched_of_whole came
    rw [same]
    exact ⟨called, searched⟩
  · rintro ⟨called, searched⟩
    rw [whole_of_searched searched, same, ← called]

/-! ### The tiers of a pinned job -/

/-- A tier stands in an order behind the first place of another. -/
def Behind (order : List String) (first second : String) : Prop :=
  ∃ before after, order = before ++ first :: after ∧ first ∉ before ∧ second ∈ after

/-- A list from the first place of one of its members on. -/
theorem dropWhile_first {order : List String} {tier : String} (listed : tier ∈ order) :
    ∃ before after, order = before ++ tier :: after ∧ tier ∉ before ∧
      order.dropWhile (· ≠ tier) = tier :: after := by
  obtain ⟨before, after, rfl, first⟩ := List.eq_append_cons_of_mem listed
  refine ⟨before, after, rfl, first, ?_⟩
  have others : ∀ other ∈ before, decide (other ≠ tier) = true := by
    intro other member
    refine decide_eq_true ?_
    rintro rfl
    exact first member
  rw [List.dropWhile_append_of_pos others, List.dropWhile_cons_of_neg (by simp)]

/-- A tier that stands behind another in an order of distinct tiers has a later place. -/
theorem Behind.later {order : List String} {first second : String} (behind : Behind order first second)
    (distinct : order.Nodup) : order.idxOf first < order.idxOf second := by
  obtain ⟨before, after, rfl, new, member⟩ := behind
  have apart := List.nodup_append.mp distinct
  have other : second ≠ first := by
    rintro rfl
    exact (List.nodup_cons.mp apart.2.1).1 member
  have outside : second ∉ before := fun inside =>
    apart.2.2 second inside second (List.mem_cons_of_mem _ member) rfl
  rw [List.idxOf_append_of_notMem new, List.idxOf_append_of_notMem outside, List.idxOf_cons_self,
    List.idxOf_cons_ne _ other.symm]
  omega

/-- A job that is pinned goes to its pin or a tier behind it; where the order does not list its pin,
to its pin. -/
theorem tier_of_pinned {config : BrokerConfig} {job : Job} {pin : String} {site : Site γ}
    (pinned : truthy job.pinnedTier = some pin) (member : backend ∈ site.candidates config job) :
    backend.tierOf = pin ∨ pin ∈ config.tiers ∧ Behind config.tiers pin backend.tierOf := by
  obtain ⟨tier, listed, inTier⟩ := List.mem_flatMap.mp member
  obtain rfl : backend.tierOf = tier := of_decide_eq_true (List.mem_filter.mp inTier).2
  have tiers : tiersFor config job =
      if config.tiers.contains pin then config.tiers.dropWhile (· ≠ pin) else [pin] := by
    unfold tiersFor BrokerConfig.tiers
    rw [pinned]
  rw [tiers] at listed
  split at listed
  · next holds =>
    have holds : pin ∈ config.tiers := by simpa using holds
    obtain ⟨before, after, order, first, rest⟩ := dropWhile_first holds
    rw [rest] at listed
    rcases List.mem_cons.mp listed with same | later
    · exact Or.inl same
    · exact Or.inr ⟨holds, before, after, order, first, later⟩
  · exact Or.inl (List.mem_singleton.mp listed)

/-! ### The tier a preemption moves a pin to -/

/-- The tier a job counts as being on: its pin, or spot. -/
def standing (pin : Option String) : String := (truthy pin).getD "spot"

/-- A pin is moved to a tier of the order that some backend serves, behind the tier the job counts as
being on where the order lists that. -/
inductive Sinks (site : Site γ) (config : BrokerConfig) (gpuType : String) (pin : Option String) :
    Option String → Prop
  | sink {tier : String} {gpu : GpuType} {backend : Backend γ}
      (known : config.gpu gpuType = .ok gpu) (listed : tier ∈ config.placementOrder)
      (behind : standing pin ∈ config.placementOrder → Behind config.placementOrder (standing pin) tier)
      (member : backend ∈ site.backends) (served : backend.tierOf = tier)
      (suits : backend.Suits gpu.currency gpuType) : Sinks site config gpuType pin (some tier)

/-- The tier a job falls back to is one a pin is moved to. -/
theorem sinks_fallbackTier {site : Site γ} {config : BrokerConfig} {gpu : GpuType} {job : Job}
    {tier : String} (known : config.gpu job.gpuType = .ok gpu)
    (falls : fallbackTier site config gpu job = some tier) :
    Sinks site config job.gpuType job.pinnedTier (some tier) := by
  unfold fallbackTier at falls
  simp only at falls
  have serves := List.find?_some falls
  obtain ⟨backend, member, suits⟩ := List.any_eq_true.mp serves
  simp only [Bool.and_eq_true, decide_eq_true_eq] at suits
  have within := List.mem_of_find?_eq_some falls
  have place : tier ∈ config.placementOrder ∧ (standing job.pinnedTier ∈ config.placementOrder →
      Behind config.placementOrder (standing job.pinnedTier) tier) := by
    by_cases listed : standing job.pinnedTier ∈ config.placementOrder
    · rw [if_pos (by simpa [standing] using listed)] at within
      obtain ⟨before, after, order, first, rest⟩ := dropWhile_first listed
      have later : tier ∈ after := by
        have cut : (config.placementOrder.dropWhile
            (· ≠ (truthy job.pinnedTier).getD "spot")).tail = after := by
          show (config.placementOrder.dropWhile (· ≠ standing job.pinnedTier)).tail = after
          rw [rest]
          rfl
        exact cut ▸ within
      refine ⟨?_, fun _ => ⟨before, after, order, first, later⟩⟩
      rw [order]
      exact List.mem_append_right _ (List.mem_cons_of_mem _ later)
    · rw [if_neg (by simpa [standing] using listed)] at within
      exact ⟨within, fun holds => absurd holds listed⟩
  exact .sink known place.1 place.2 member suits.1.1 ⟨suits.1.2, suits.2⟩

/-- A kind of GPU is billed in one currency, whatever its price. -/
theorem gpu_repriced {config other : BrokerConfig} {name : String} {gpu : GpuType}
    (same : config.unpriced = other.unpriced) (known : config.gpu name = .ok gpu) :
    ∃ now, other.gpu name = .ok now ∧ now.currency = gpu.currency := by
  have looked : ∀ config : BrokerConfig, config.unpriced.gpuTypes.find? (fun gpu => gpu.name = name) =
      (config.gpuTypes.find? fun gpu => gpu.name = name).map fun gpu => { gpu with hourlyPrice := 0 } :=
    fun config => List.find?_map
  unfold BrokerConfig.gpu at known ⊢
  split at known
  · next found hit =>
    cases known
    have alike := looked config
    rw [same, looked other, hit] at alike
    obtain ⟨now, priced, equal⟩ := Option.map_eq_some_iff.mp alike
    have billed : now.currency = gpu.currency := (GpuType.mk.inj equal).2.1
    exact ⟨now, by rw [priced], billed⟩
  · cases known

/-- Prices do not matter to where a pin is moved. -/
theorem Sinks.priced {site : Site γ} {config other : BrokerConfig} {pin new : Option String}
    (sinks : Sinks site config gpuType pin new) (same : config.unpriced = other.unpriced) :
    Sinks site other gpuType pin new := by
  obtain ⟨known, listed, behind, member, served, suits⟩ := sinks
  have order : config.placementOrder = other.placementOrder := by
    show config.unpriced.placementOrder = other.unpriced.placementOrder
    rw [same]
  obtain ⟨now, found, currency⟩ := gpu_repriced same known
  rw [order] at listed behind
  exact .sink found listed behind member served ⟨suits.bills.trans currency.symm, suits.offers⟩

/-! ### What keeps a pin -/

/-- Every job keeps its pin, and the configuration all but its prices. -/
structure KeepsPins (before after : World γ) : Prop where
  settings : after.config.unpriced = before.config.unpriced
  rows : ∀ id row, before.db.jobs.find id = some row → ∃ later, after.db.jobs.find id = some later ∧
    later.gpuType = row.gpuType ∧ later.pinnedTier = row.pinnedTier

theorem KeepsPins.still {before after : World γ} (db : after.db = before.db)
    (config : after.config = before.config) : KeepsPins before after :=
  ⟨by rw [config], fun _ row found => ⟨row, by rw [db]; exact found, rfl, rfl⟩⟩

/-- A transaction that pins a job to a tier. -/
def Write.pins : Write → Bool
  | .touch _ (.pinTier _ _) _ => true
  | _ => false

/-- A transaction that pins no job keeps every pin. -/
theorem keepsPins_apply {write : Write} (unpinned : write.pins = false)
    (applied : write.apply world = .ok next) : KeepsPins world next := by
  have persists := Write.persists applied
  refine ⟨persists.settings, fun id row found => ?_⟩
  obtain ⟨later, hasLater, terms⟩ := persists.jobs id row found
  refine ⟨later, hasLater, congrArg Terms.gpuType terms, ?_⟩
  cases Write.rowStep applied hasLater with
  | inserted fresh =>
      rw [found] at fresh
      cases fresh
  | moved current target change now outstanding other move mine hasRow state after =>
      cases found.symm.trans hasRow
      rw [after]
      rfl
  | touched columns now other touch hasRow after =>
      cases found.symm.trans hasRow
      subst touch
      rw [after]
      cases columns with
      | pinTier => cases unpinned
      | attempt | preemption | checkpoint | cancelRequest | output | note => rfl
  | stamped job amount accrued now other settle mine hasRow after =>
      cases found.symm.trans hasRow
      rw [after]
      rfl
  | kept hasRow =>
      cases found.symm.trans hasRow
      rfl

/-- The habit of programs that pin no job. -/
def unpinned (γ : Type) : Habit γ where
  owes := fun _ => KeepsPins
  calls := fun _ _ => True
  makes := fun write => write.pins = false
  rests := fun _ => .still rfl rfl
  reads := fun _ => .still rfl rfl
  serves := fun _ _ _ => .still rfl rfl
  writes := by
    intro write world bare
    cases applied : write.apply world with
    | ok next => exact Write.leaves_ok applied ▸ keepsPins_apply bare applied
    | error error =>
        rw [Write.leaves_error applied]
        exact .still rfl rfl

/-! ### One preemption -/

/-- How a job stands: the kind of GPU it asked for and its pin, under a configuration up to its
prices. -/
structure Stands (config : BrokerConfig) (id : JobId) (gpuType : String) (pin : Option String)
    (world : World γ) : Prop where
  settings : world.config.unpriced = config.unpriced
  row : ∃ row, world.db.jobs.find id = some row ∧ row.gpuType = gpuType ∧ row.pinnedTier = pin

variable {config : BrokerConfig} {id : JobId} {pin : Option String} {site : Site γ} {job : Job}
  {outcome : Outcome}

theorem Stands.keeps (stands : Stands config id gpuType pin world) (keeps : KeepsPins world next) :
    Stands config id gpuType pin next := by
  obtain ⟨settings, row, found, kind, pinned⟩ := stands
  obtain ⟨later, hasLater, same, kept⟩ := keeps.rows id row found
  exact ⟨keeps.settings.trans settings, later, hasLater, same.trans kind, kept.trans pinned⟩

/-- A program that pins no job leaves a job as it stands. -/
theorem course_unpinned {program : Op γ α} {post : α → Prop} (yields : (unpinned γ).Yields program post)
    (stands : Stands config id gpuType pin world) :
    program.Course (Stands config id gpuType pin) (fun value _ => post value) (fun _ => True) world := by
  have course := (yields world).course (fun _ _ => trivial) (fun _ _ _ _ keeps held => held.keeps keeps)
    trivial stands
  exact course.weaken (fun _ both => both.2) (fun _ _ _ holds => holds) fun _ _ _ => trivial

theorem notes_unpinned (id : JobId) : (unpinned γ).regime.Notes id := by
  refine ⟨(unpinned γ).sees id, fun write jots => ?_⟩
  cases write with
  | touch job columns now =>
      cases columns with
      | pinTier => exact jots.elim
      | attempt | preemption | checkpoint | cancelRequest | output | note => rfl
  | insertUser | updateUser | suspend | restore | create | refuse | move | settle | sampled | notify
  | abandon | applyPrices => rfl

/-- What a copy of a job's record says of its kind of GPU and its pin. -/
structure Agrees (id : JobId) (gpuType : String) (pin : Option String) (job : Job) : Prop where
  id : job.jobId = id
  kind : job.gpuType = gpuType
  pin : job.pinnedTier = pin

theorem unpinned_transition {target : JobState} {change : Change} (agrees : Agrees id gpuType pin job) :
    (unpinned γ).regime.Yields (transition job target change) (Agrees id gpuType pin) := by
  refine Regime.weaken _ (yields_transition (fun _ => trivial) fun _ _ => rfl) ?_
  rintro moved ⟨moment, rfl⟩
  exact ⟨agrees.id, agrees.kind, agrees.pin⟩

theorem unpinned_requeue : (unpinned γ).regime.Yields (requeue job outcome) fun _ => True :=
  (unpinned γ).regime.bind (yields_appendLog (notes_unpinned _) _) fun _ _ =>
    (unpinned γ).regime.bind (unpinned_transition ⟨rfl, rfl, rfl⟩) fun _ _ => yields_pure trivial

theorem unpinned_collectCheckpoint (agrees : Agrees id gpuType pin job) :
    (unpinned γ).regime.Yields (collectCheckpoint site job)
      fun progressed => Agrees id gpuType pin (progressed.getD job) := by
  unfold collectCheckpoint
  split
  · exact yields_pure agrees
  · refine yields_external (fun _ => trivial) fun answer => ?_
    split
    · exact (unpinned γ).regime.bind (yields_appendLog (notes_unpinned _) _) fun _ _ => yields_pure agrees
    · exact yields_pure agrees
    · split
      · exact yields_pure agrees
      · have recorded : ∀ step key, (unpinned γ).regime.Yields (recordCheckpoint job step key)
            (Agrees id gpuType pin) :=
          fun step key => yields_now fun moment => (unpinned γ).regime.writing rfl
            ⟨agrees.id, agrees.kind, agrees.pin⟩
        exact (unpinned γ).regime.bind (recorded _ _) fun saved same => yields_pure same

/-- A pin that is as it was, or was moved. -/
def Sunk (site : Site γ) (config : BrokerConfig) (gpuType : String) (pin new : Option String) : Prop :=
  new = pin ∨ Sinks site config gpuType pin new

/-- A job that stands as it did but for its pin, which may have been moved. -/
def Descended (site : Site γ) (config : BrokerConfig) (id : JobId) (gpuType : String)
    (pin : Option String) (world : World γ) : Prop :=
  ∃ new, Sunk site config gpuType pin new ∧ Stands config id gpuType new world

variable {new : Option String}

/-- A program that pins no job leaves a job as it stands, with the pin it has by now. -/
theorem course_quietly {program : Op γ α} {post : α → Prop}
    (moved : Sunk site config gpuType pin new) (yields : (unpinned γ).Yields program post)
    (stands : Stands config id gpuType new world) :
    program.Course (Descended site config id gpuType pin)
      (fun value last => post value ∧ Stands config id gpuType new last) (fun _ => True) world :=
  (course_unpinned yields stands).weaken (fun _ kept => ⟨new, moved, kept⟩)
    (fun _ _ kept holds => ⟨holds, kept⟩) fun _ _ _ => trivial

theorem course_requeue (moved : Sunk site config gpuType pin new)
    (stands : Stands config id gpuType new world) :
    (requeue job outcome).Course (Descended site config id gpuType pin) (fun _ _ => True)
      (fun _ => True) world :=
  (course_quietly moved unpinned_requeue stands).weaken (fun _ kept => kept) (fun _ _ _ _ => trivial)
    fun _ _ _ => trivial

/-- Pinning a job moves its pin. -/
theorem course_pinTier {tier reason : String} (moved : Sunk site config gpuType pin new)
    (sinks : Sinks site config gpuType pin (some tier)) (stands : Stands config id gpuType new world)
    (agrees : Agrees id gpuType new job) :
    (pinTier job tier reason).Course (Descended site config id gpuType pin)
      (fun pinned last => pinned.jobId = id ∧ Stands config id gpuType (some tier) last) (fun _ => True)
      world := by
  have ticked : Stands config id gpuType new world.ticked := stands.keeps (.still rfl rfl)
  have here : Descended site config id gpuType pin world.ticked := ⟨new, moved, ticked⟩
  refine ⟨⟨new, moved, stands⟩, course_executing here (fun next applied => ?_) fun _ _ => trivial⟩
  obtain ⟨settings, row, found, kind, _⟩ := ticked
  have pinned : Stands config id gpuType (some tier) next := by
    obtain ⟨db, written, rfl⟩ := Write.apply_eq applied
    let columns := Touch.pinTier tier reason
    let moment := world.clock world.asked
    refine ⟨settings, columns.onRow moment row, ?_, kind, rfl⟩
    show db.jobs.find id = _
    rw [Db.touchJob_eq written]
    show (world.ticked.db.jobs.modify job.jobId (columns.onRow moment) (columns.onRow_id moment)).find id = _
    rw [Table.find_modify, if_pos agrees.id.symm, found]
    rfl
  exact ⟨⟨some tier, Or.inr sinks, pinned⟩, agrees.id, pinned⟩

/-- A value that is there is handed on. -/
theorem orRaise_ok_bind {value : α} {rest : α → Op γ β} : orRaise (.ok value) >>= rest = rest value :=
  rfl

/-- A job whose copy agrees with its row is left as it stands by a preemption, or with its pin moved
once, wherever the preemption stops. -/
theorem course_preempt {observation : Observation} (stands : Stands config id gpuType pin world)
    (agrees : Agrees id gpuType pin job) :
    (preempt site job backend observation outcome).Course (Descended site config id gpuType pin)
      (fun _ _ => True) (fun _ => True) world := by
  have unmoved : Sunk site config gpuType pin pin := Or.inl rfl
  have counts : ∀ job, Agrees id gpuType pin job →
      (unpinned γ).regime.Yields (recordPreemption job) (Agrees id gpuType pin) := fun job agrees =>
    yields_now fun _ => (unpinned γ).regime.writing rfl ⟨agrees.id, agrees.kind, agrees.pin⟩
  refine (course_quietly unmoved ((unpinned γ).regime.trusting fun _ => trivial) stands).bind
    fun _ _ _ held => ?_
  refine (course_quietly unmoved (unpinned_collectCheckpoint agrees) held.2).bind
    fun progressed _ _ saved => ?_
  refine (course_quietly unmoved (counts _ saved.1) saved.2).bind fun counted _ _ count => ?_
  refine (course_quietly unmoved (unpinned_transition count.1) count.2).bind fun moved after _ gone => ?_
  have here : Descended site config id gpuType pin after := ⟨pin, unmoved, gone.2⟩
  refine ⟨here, ?_⟩
  show Program.Course _ _ _ (if _ then _ else _) after
  split
  · cases known : after.config.gpu moved.gpuType with
    | error error => exact ⟨here, trivial⟩
    | ok gpu =>
        rw [orRaise_ok_bind]
        cases falls : fallbackTier site after.config gpu moved with
        | none =>
            exact (course_quietly unmoved (yields_appendLog (notes_unpinned _) _) gone.2).bind
              fun _ _ _ logged => course_requeue unmoved logged.2
        | some tier =>
            have sinks : Sinks site config gpuType pin (some tier) := by
              have sunk := sinks_fallbackTier known falls
              rw [gone.1.kind, gone.1.pin] at sunk
              exact sunk.priced gone.2.settings
            refine (course_pinTier unmoved sinks gone.2 gone.1).bind fun pinned _ _ pins => ?_
            exact (course_quietly (Or.inr sinks) (yields_notify (notes_unpinned _) _ _) pins.2).bind
              fun _ _ _ told => course_requeue (Or.inr sinks) told.2
  · exact course_requeue unmoved gone.2

/-! ### Preemptions one after another -/

/-- Preemptions of one job, each on its record as it is then and each stopped anywhere; between them
anything may happen that moves no pin. -/
inductive Preemptions (site : Site γ) (id : JobId) : World γ → World γ → Prop
  | start (world : World γ) : Preemptions site id world world
  | meanwhile {world before after : World γ} (past : Preemptions site id world before)
      (keeps : KeepsPins before after) : Preemptions site id world after
  | preempt {world before : World γ} {job : Job} (past : Preemptions site id world before)
      (mine : job.jobId = id) (copy : InStep before job) (backend : Backend γ)
      (observation : Observation) (outcome : Outcome) (length : Nat) :
      Preemptions site id world
        (Program.run length (Broker.preempt site job backend observation outcome) before).2

/-- Over any preemptions of a job its pin is moved step by step, each time to a tier some backend
serves behind the one the job counted as being on. -/
theorem preemptions_sink (preemptions : Preemptions site id world next)
    (stands : Stands config id gpuType pin world) :
    ∃ new, Relation.ReflTransGen (Sinks site config gpuType) pin new ∧
      Stands config id gpuType new next := by
  induction preemptions with
  | start => exact ⟨pin, .refl, stands⟩
  | meanwhile past keeps inductionHypothesis =>
      obtain ⟨new, path, stands⟩ := inductionHypothesis
      exact ⟨new, path, stands.keeps keeps⟩
  | preempt past mine copy backend observation outcome length inductionHypothesis =>
      obtain ⟨new, path, stands⟩ := inductionHypothesis
      obtain ⟨row, found, essence⟩ := copy
      obtain ⟨other, hasRow, kind, pinned⟩ := stands.row
      rw [mine] at found
      cases found.symm.trans hasRow
      have agrees : Agrees id gpuType new _ :=
        ⟨mine, (essence_eq essence Job.gpuType fun _ => rfl).symm.trans kind,
          (essence_eq essence Job.pinnedTier fun _ => rfl).symm.trans pinned⟩
      obtain ⟨last, moved, stands⟩ := (course_preempt stands agrees).run length
      rcases moved with rfl | sinks
      · exact ⟨_, path, stands⟩
      · exact ⟨last, path.tail sinks, stands⟩

/-- In an order of distinct tiers, pins move to later places only. -/
theorem sinks_later (path : Relation.ReflTransGen (Sinks site config gpuType) pin new)
    (distinct : config.placementOrder.Nodup) (named : "" ∉ config.placementOrder)
    (listed : standing pin ∈ config.placementOrder) :
    new = pin ∨ config.placementOrder.idxOf (standing pin) < config.placementOrder.idxOf (standing new) := by
  have step : ∀ {old new : Option String}, Sinks site config gpuType old new →
      standing old ∈ config.placementOrder → standing new ∈ config.placementOrder ∧
        config.placementOrder.idxOf (standing old) < config.placementOrder.idxOf (standing new) := by
    rintro old _ ⟨_, within, behind, _, _, _⟩ here
    next tier _ _ _ _ _ _ =>
    have same : standing (some tier) = tier := by
      unfold standing
      rw [truthy_some fun empty => named (empty ▸ within)]
      rfl
    rw [same]
    exact ⟨within, (behind here).later distinct⟩
  have reached : standing new ∈ config.placementOrder ∧ (new = pin ∨
      config.placementOrder.idxOf (standing pin) < config.placementOrder.idxOf (standing new)) := by
    induction path with
    | refl => exact ⟨listed, Or.inl rfl⟩
    | tail path sinks inductionHypothesis =>
        obtain ⟨here, later⟩ := inductionHypothesis
        obtain ⟨there, next⟩ := step sinks here
        refine ⟨there, Or.inr ?_⟩
        rcases later with rfl | before
        · exact next
        · exact before.trans next
  exact reached.2

/-! ### The tiers of a job -/

/-- Placement chooses the first backend, tier by tier, that bills in the currency of the job's GPU, has
it and has room, and none when each is passed over; a pinned job goes to its pin or behind it; and
preemptions move a pin only to tiers some backend serves, behind the one the job counts as being on where
the order lists that one. In an order of distinct tiers those are later ones. -/
theorem placement_descends (site : Site γ) :
    (∀ job chosen (world next : World γ), (choose site job).whole world = (.ok chosen, next) ↔
      ∃ gpu, world.config.gpu job.gpuType = .ok gpu ∧ next = world.called next.cloud ∧
        Searched gpu.currency job.gpuType (site.candidates world.config job) world.cloud next.cloud
          chosen) ∧
    (∀ job pin placement (world next : World γ), truthy job.pinnedTier = some pin →
      (choose site job).whole world = (.ok (some placement), next) →
        placement.backend.tierOf = pin ∨
          pin ∈ world.config.tiers ∧ Behind world.config.tiers pin placement.backend.tierOf) ∧
    ∀ id row (world next : World γ), Preemptions site id world next →
      world.db.jobs.find id = some row → ∃ later, next.db.jobs.find id = some later ∧
        Relation.ReflTransGen (Sinks site world.config row.gpuType) row.pinnedTier later.pinnedTier ∧
        let order := world.config.placementOrder
        (order.Nodup → "" ∉ order → standing row.pinnedTier ∈ order →
          later.pinnedTier = row.pinnedTier ∨
            order.idxOf (standing row.pinnedTier) < order.idxOf (standing later.pinnedTier)) := by
  have chooses : ∀ job chosen (world next : World γ),
      (choose site job).whole world = (.ok chosen, next) ↔
        ∃ gpu, world.config.gpu job.gpuType = .ok gpu ∧ next = world.called next.cloud ∧
          Searched gpu.currency job.gpuType (site.candidates world.config job) world.cloud next.cloud
            chosen := by
    intro job chosen world next
    constructor
    · intro came
      cases known : world.config.gpu job.gpuType with
      | error error =>
          unfold choose at came
          rw [whole_settings, known] at came
          cases came
      | ok gpu => exact ⟨gpu, rfl, (choose_iff known).mp came⟩
    · rintro ⟨gpu, known, found⟩
      exact (choose_iff known).mpr found
  refine ⟨chooses, fun job pin placement world next pinned came => ?_,
    fun id row world next preemptions found => ?_⟩
  · obtain ⟨gpu, _, _, ⟨before, after, middle, candidates, _⟩, _⟩ := (chooses _ _ _ _).mp came
    have member : placement.backend ∈ site.candidates world.config job := by
      rw [candidates]
      exact List.mem_append_right _ List.mem_cons_self
    exact tier_of_pinned pinned member
  · obtain ⟨new, path, stands⟩ := preemptions_sink preemptions ⟨rfl, row, found, rfl, rfl⟩
    obtain ⟨later, hasLater, _, rfl⟩ := stands.row
    exact ⟨later, hasLater, path, fun distinct named listed => sinks_later path distinct named listed⟩

/-- The rack, sold by the spot and on demand. -/
def Rack.twofold : Desk Rack where
  site :=
    { backends :=
        [Rack.backend (fun _ => .interrupted) fun _ => [],
          { Rack.backend (fun _ => .interrupted) fun _ => [] with
            name := "dear"
            tier := some "ondemand" }]
      latest := none
      score := fun _ _ _ => 0
      evidence := fun _ => "" }
  text _ := "refused"

/-- The club with an order of tiers, its jobs pinned the first time they are preempted. -/
def BrokerConfig.ordered (order : List String) : BrokerConfig :=
  { BrokerConfig.club with
    spotMaxPreemptionsWithoutProgress := 1
    placementOrder := order }

/-- The club after so many ticks of the scheduler. -/
def Rack.placed (order : List String) (ticks : Nat) : World Rack :=
  Rack.twofold.after (Operation.opening ++ Operation.ticks ticks) (World.club (.ordered order))

/-- The pin of Ann's job then. -/
def Rack.pinAfter (order : List String) (ticks : Nat) : Option (Option String) :=
  ((Rack.placed order ticks).db.jobs.find "job").map Job.pinnedTier

/-- A preemption of a job, to its end. -/
def Rack.preempted (job : Job) (world : World Rack) : World Rack :=
  (Program.run 40 (preempt Rack.twofold.site job (Rack.backend (fun _ => .interrupted) fun _ => [])
    ⟨.interrupted, none, none⟩ {}) world).2

/-- Ann's job is preempted on spot and pinned to a later place; once pinned, it is placed there. -/
theorem pinned_behind : ∃ row later placement,
    (Rack.placed ["spot", "ondemand"] 1).db.jobs.find "job" = some row ∧
      (Rack.preempted row (Rack.placed ["spot", "ondemand"] 1)).db.jobs.find "job" = some later ∧
      (later.pinnedTier = row.pinnedTier ∨
        ["spot", "ondemand"].idxOf (standing row.pinnedTier) <
          ["spot", "ondemand"].idxOf (standing later.pinnedTier)) ∧
      ((choose Rack.twofold.site later).whole
        (Rack.preempted row (Rack.placed ["spot", "ondemand"] 1))).1 = .ok (some placement) ∧
      (placement.backend.tierOf = "ondemand" ∨ "ondemand" ∈ ["spot", "ondemand"] ∧
        Behind ["spot", "ondemand"] "ondemand" placement.backend.tierOf) := by
  let before := Rack.placed ["spot", "ondemand"] 1
  have pins : (before.db.jobs.find "job").map Job.pinnedTier = some none := by decide +kernel
  obtain ⟨row, found, unpinned⟩ := Option.map_eq_some_iff.mp pins
  have choice : (before.db.jobs.find "job").map (fun row =>
      ((Rack.preempted row before).db.jobs.find "job").map fun later =>
        (later.pinnedTier, (Rack.preempted row before).config.tiers,
          (((choose Rack.twofold.site later).whole (Rack.preempted row before)).1.toOption.bind id).isSome)) = some (some (some "ondemand", ["spot", "ondemand"], true)) := by
    decide +kernel
  rw [found, Option.map_some, Option.some_inj] at choice
  obtain ⟨later, hasLater, chosen⟩ := Option.map_eq_some_iff.mp choice
  obtain ⟨pinned, rest⟩ := Prod.mk.inj chosen
  obtain ⟨tiers, placed⟩ := Prod.mk.inj rest
  have run : Preemptions Rack.twofold.site "job" before (Rack.preempted row before) :=
    .preempt (.start before) (Table.find_key found)
      ⟨row, by rw [Table.find_key found]; exact found, rfl⟩ _ _ _ _
  obtain ⟨also, hasAlso, _, laterPlace⟩ :=
    (placement_descends Rack.twofold.site).2.2 "job" row before (Rack.preempted row before) run found
  cases hasLater.symm.trans hasAlso
  have order : before.config.placementOrder = ["spot", "ondemand"] := by decide +kernel
  rw [order] at laterPlace
  have place := laterPlace (by decide) (by decide) (by rw [unpinned]; decide)
  have written : truthy later.pinnedTier = some "ondemand" := by rw [pinned]; rfl
  cases ran : (choose Rack.twofold.site later).whole (Rack.preempted row before) with
  | mk answer next =>
      rw [ran] at placed
      cases answer with
      | error => cases placed
      | ok choice =>
        cases choice with
        | none => cases placed
        | some placement =>
          have behind := (placement_descends Rack.twofold.site).2.1 later "ondemand" placement _ next
            written ran
          rw [tiers] at behind
          exact ⟨row, later, placement, found, hasLater, place, by rw [ran], behind⟩

/-- An order that names spot twice: the job is pinned to on-demand capacity, and then back to spot, whose
place is the earlier one. -/
theorem pinned_back :
    Rack.pinAfter ["spot", "ondemand", "spot"] 2 = some (some "ondemand") ∧
      Rack.pinAfter ["spot", "ondemand", "spot"] 4 = some (some "spot") ∧
      ["spot", "ondemand", "spot"].idxOf "spot" < ["spot", "ondemand", "spot"].idxOf "ondemand" := by
  decide +kernel

end GpuBroker.Broker
