/-
This file is the runs of the broker: operations one after another on one
database, by a process that is alone, each stopped after any number of its
accesses.

A run that is stopped early is a crash, so every state between two transactions
is the end of some run. The rule of such runs is the one every run-level result
uses: what holds at the start, through a call or a reading of the clock, and
through each transaction as the broker computes it, holds at the end.
-/
import GpuBroker.Broker.Requests

namespace GpuBroker.Broker

open Library

variable {γ : Type}

/-! ### The setting of a process that is alone -/

/-- A process that is alone on its database, on what is assumed of the capacity outside. -/
def solitary (outside : Outside γ) : Setting γ where
  outside := outside
  alone := True
  calm := False
  others := fun world next => next = world
  makes := fun _ _ => True
  issues := fun _ => True
  allows := fun _ _ => True
  raises := fun _ => True
  refl := fun _ => rfl
  trans := fun first second => second.trans first
  persists := fun same => same ▸ Persists.refl _
  still := fun _ same => same
  rests := trivial
  lasts := fun _ _ => trivial
  unspent := False.elim
  unmoved := fun _ _ exactly _ => (exactly trivial).unmoved
  fails := fun _ _ _ _ _ _ => trivial

/-- Nothing assumed of the capacity outside. -/
def Outside.unknown : Outside γ where
  calls := fun _ _ _ => True
  fetched := fun _ _ _ _ _ => True
  handles := fun _ => True
  idle := fun _ => trivial

/-- What is assumed of the machines a site launches. -/
def Site.Handled (site : Site γ) : Prop :=
  ∀ backend ∈ site.backends, ∀ job cloud allocation,
    (backend.launch job cloud).1 = .ok allocation → allocation.handle ≠ ""

/-- Every site runs where nothing is assumed. -/
theorem runs_unknown (site : Site γ) : (solitary (Outside.unknown : Outside γ)).Runs site where
  ends := fun _ _ => ⟨fun _ _ _ => ⟨trivial, trivial⟩, fun _ _ _ _ _ => trivial⟩
  starts := fun _ _ => ⟨fun _ _ => trivial, fun _ _ _ _ => trivial, fun _ _ _ _ => trivial,
    fun _ _ _ _ => ⟨trivial, trivial, trivial⟩⟩
  watches := fun _ _ => ⟨fun _ _ _ => trivial, fun _ _ => trivial, fun _ _ _ _ => trivial,
    fun _ _ _ => trivial, fun _ _ _ _ _ => trivial, fun _ _ => trivial⟩
  latest := fun _ _ _ _ => trivial

/-! ### Runs -/

/-- A world before the first operation: an empty database. -/
def World.new (config : BrokerConfig) (cloud : γ) (clock : Nat → Time) : World γ where
  db := .empty
  config
  cloud
  clock
  asked := 0

/-- What a site is operated with: the site, and how its refusals are worded. -/
structure Desk (γ : Type) where
  site : Site γ
  text : Refusal → String

/-- The programs of a run: operations, each stopped after a number of accesses. -/
def Desk.programs (desk : Desk γ) (entries : List (Operation × Nat)) :
    List (Program (World γ) Write BrokerError Unit × Nat) :=
  entries.map fun entry => (entry.1.program desk.site desk.text, entry.2)

/-- What a run leaves. -/
def Desk.after (desk : Desk γ) (entries : List (Operation × Nat)) (world : World γ) : World γ :=
  Program.sequence (desk.programs entries) world

/-- Every transaction of a run is one the predicate allows in the state before it. -/
def Desk.Allows (desk : Desk γ) (also : Write → World γ → Prop) (entries : List (Operation × Nat))
    (world : World γ) : Prop :=
  Program.AllAllowed also (desk.programs entries) world

instance (desk : Desk γ) (also : Write → World γ → Prop) [∀ write world, Decidable (also write world)]
    (entries : List (Operation × Nat)) (world : World γ) : Decidable (desk.Allows also entries world) :=
  inferInstanceAs (Decidable (Program.AllAllowed also (desk.programs entries) world))

theorem Booked.new (config : BrokerConfig) (cloud : γ) (clock : Nat → Time) :
    Booked (World.new config cloud clock) :=
  ⟨fun _ member => (List.not_mem_nil member).elim, fun _ _ => nofun, fun _ _ => nofun⟩

/-- The contract of runs whose transactions a predicate allows. -/
abbrev lawful (outside : Outside γ) (also : Write → World γ → Prop) :
    Contract (World γ) Write BrokerError :=
  (solitary outside).contract.restrict also

theorem allowed_restrict {outside : Outside γ} {also : Write → World γ → Prop} {length : Nat}
    {program : Op γ Unit} {world : World γ} (permitted : program.Allowed also length world) :
    program.Allowed (lawful outside also).allowed length world := by
  induction length generalizing program world with
  | zero => trivial
  | succ length inductionHypothesis =>
      exact ⟨fun label pending => ⟨trivial, permitted.1 label pending⟩,
        inductionHypothesis permitted.2⟩

theorem allAllowed_restrict {outside : Outside γ} {also : Write → World γ → Prop}
    {entries : List (Op γ Unit × Nat)} {world : World γ}
    (permitted : Program.AllAllowed also entries world) :
    Program.AllAllowed (lawful outside also).allowed entries world := by
  induction entries generalizing world with
  | nil => trivial
  | cons entry entries inductionHypothesis =>
      exact ⟨allowed_restrict permitted.1, inductionHypothesis permitted.2⟩

/-- A run leaves the books in order, along a path of lawful accesses. -/
theorem Desk.path {outside : Outside γ} {also : Write → World γ → Prop} {desk : Desk γ}
    {entries : List (Operation × Nat)} {world : World γ}
    (runs : (solitary outside).Runs desk.site) (booked : Booked world)
    (permitted : desk.Allows also entries world) :
    Booked (desk.after entries world) ∧
      (lawful outside also).Path world (desk.after entries world) := by
  refine Program.Safe.sequence (fun program member state kept => ?_) booked
    (allAllowed_restrict permitted)
  obtain ⟨entry, _, rfl⟩ := List.mem_map.mp member
  exact (safe_operation entry.1 runs (fun _ => trivial) (fun _ _ => trivial) (sole_alone trivial)
    kept).restrict also

/-- One lawful access: a quiet one, or a transaction that is computed as the broker computes it. -/
theorem moved_cases {outside : Outside γ} {also : Write → World γ → Prop} {world next : World γ}
    (moved : (lawful outside also).Moved world next) :
    Booked world ∧ ((Quiet world next ∧ ∃ call, outside.calls call world.cloud next.cloud) ∨
      next = world ∨ ∃ write, also write world ∧ Sound world write ∧ Named outside write ∧
        Exact outside world write ∧ write.apply world = .ok next) := by
  obtain ⟨label, allowed, booked, guarantee⟩ := moved
  refine ⟨booked, ?_⟩
  cases label with
  | none =>
      obtain ⟨quiet, call, _, calls⟩ := guarantee
      exact Or.inl ⟨quiet, call, calls⟩
  | some write =>
      obtain ⟨owes, _, left⟩ := guarantee
      cases applied : write.apply world with
      | error error => exact Or.inr (Or.inl (left.trans (Write.leaves_error applied)))
      | ok after =>
          rw [Write.leaves_ok applied] at left
          subst left
          exact Or.inr (Or.inr ⟨write, (allowed write rfl).2, owes.sound, owes.named,
            owes.exactly trivial, applied⟩)

/-- The rule of runs: what quiet accesses and lawful transactions keep holds at the end. -/
theorem Desk.keeps {outside : Outside γ} {also : Write → World γ → Prop} {desk : Desk γ}
    {entries : List (Operation × Nat)} {world : World γ} {holds : World γ → Prop}
    (runs : (solitary outside).Runs desk.site) (booked : Booked world)
    (permitted : desk.Allows also entries world) (start : holds world)
    (quiet : ∀ before after, Booked before → Quiet before after →
      (∃ call, outside.calls call before.cloud after.cloud) → holds before → holds after)
    (writes : ∀ write before after, Booked before → also write before → Sound before write →
      Named outside write → Exact outside before write → write.apply before = .ok after →
      holds before → holds after) :
    Booked (desk.after entries world) ∧ holds (desk.after entries world) := by
  obtain ⟨kept, path⟩ := Desk.path runs booked permitted
  refine ⟨kept, ?_⟩
  clear kept
  generalize desk.after entries world = last at path
  induction path with
  | refl => exact start
  | tail _ moved held =>
      obtain ⟨bookedHere, step⟩ := moved_cases moved
      rcases step with ⟨silent, call⟩ | same | ⟨write, allowed, sound, named, exactly, applied⟩
      · exact quiet _ _ bookedHere silent call held
      · exact same ▸ held
      · exact writes write _ _ bookedHere allowed sound named exactly applied held

/-- The transactions of a run, in order, each with the world it was made in. -/
def Desk.record (desk : Desk γ) (entries : List (Operation × Nat)) (world : World γ) :
    List (Write × World γ) :=
  Program.record (desk.programs entries) world

/-- The rule of histories: what quiet accesses, transactions that are rolled back and lawful ones keep
of the transactions so far holds of those of the whole run. -/
theorem Desk.history {outside : Outside γ} {also : Write → World γ → Prop} {desk : Desk γ}
    {entries : List (Operation × Nat)} {world : World γ}
    {holds : List (Write × World γ) → World γ → Prop}
    (runs : (solitary outside).Runs desk.site) (booked : Booked world)
    (permitted : desk.Allows also entries world) (start : holds [] world)
    (quiet : ∀ past before after, Quiet before after →
      (∃ call, outside.calls call before.cloud after.cloud) → holds past before → holds past after)
    (rolledBack : ∀ past write before error, Booked before → Sound before write →
      Exact outside before write → write.apply before = .error error → holds past before →
      holds (past ++ [(write, before)]) before)
    (writes : ∀ past write before after, Booked before → also write before → Sound before write →
      Exact outside before write → write.apply before = .ok after → holds past before →
      holds (past ++ [(write, before)]) after) :
    holds (desk.record entries world) (desk.after entries world) := by
  have keeps : Program.Keeps (lawful outside also) holds := by
    refine ⟨fun past before after _ silent => quiet past before after silent.1 ?_,
      fun past write before after kept allowed guarantee held => ?_⟩
    · obtain ⟨call, _, calls⟩ := silent.2
      exact ⟨call, calls⟩
    · obtain ⟨owes, _, left⟩ := guarantee
      cases applied : write.apply before with
      | error error =>
          rw [left, Write.leaves_error applied]
          exact rolledBack past write before error kept owes.sound (owes.exactly trivial) applied held
      | ok next =>
          rw [left, Write.leaves_ok applied]
          exact writes past write before next kept allowed.2 owes.sound (owes.exactly trivial) applied
            held
  refine Program.Safe.sequence_history keeps (fun program member state kept => ?_) booked
    (allAllowed_restrict permitted) start
  obtain ⟨entry, _, rfl⟩ := List.mem_map.mp member
  exact (safe_operation entry.1 runs (fun _ => trivial) (fun _ _ => trivial) (sole_alone trivial)
    kept).restrict also

theorem Desk.allows_anything (desk : Desk γ) (entries : List (Operation × Nat)) (world : World γ) :
    desk.Allows (fun _ _ => True) entries world :=
  Program.allAllowed_always (fun _ _ => trivial) _ _

theorem Desk.booked (desk : Desk γ) (entries : List (Operation × Nat)) {world : World γ}
    (booked : Booked world) : Booked (desk.after entries world) :=
  (Desk.path (runs_unknown desk.site) booked (desk.allows_anything entries world)).1

/-! ### A small club -/

/-- Twelve minutes, the step of the club's clock. -/
def twelveMinutes : Duration := 720000000

/-- Hours of five steps and months of thirty days. -/
def Calendar.plain : Calendar where
  hours duration := (max duration 0 : Int) / 3600000000
  period moment := moment / 2592000000000
  hours_mono := by
    intro one other below
    have longer : ((max one 0 : Int) : ℚ) ≤ (max other 0 : Int) := by
      exact_mod_cast max_le_max_right 0 below
    exact div_le_div_of_nonneg_right longer (by norm_num)
  hours_zero := by
    intro duration past
    rw [max_eq_right past]
    norm_num
  period_mono := fun _ _ below => Int.ediv_le_ediv (by decide) below

/-- A cloud that counts its launches and its polls. -/
structure Rack where
  launches : Nat
  polls : Nat
  deriving DecidableEq

/-- A backend that answers its polls from a script, and whose every allocation puts out its own
lines. -/
def Rack.backend (script : Nat → BackendStatus) (output : Nat → List Line) : Backend Rack where
  name := "cloud"
  currency := .usd
  tier := some "spot"
  supports _ := true
  freeSlots _ rack := (.ok 1, rack)
  launch _ rack :=
    let number := rack.launches + 1
    (.ok ⟨s!"i-{number}", "t4"⟩, { rack with launches := number })
  start _ _ rack := (.ok (), rack)
  poll _ rack := (.ok ⟨script rack.polls, none, none⟩, { rack with polls := rack.polls + 1 })
  fetchLogs _ after rack := (.ok ((output rack.launches).drop after), rack)
  sampleUtilization _ rack := (.ok [], rack)
  terminate _ _ rack := (.ok (), rack)

def Rack.desk (script : Nat → BackendStatus) (output : Nat → List Line) : Desk Rack where
  site :=
    { backends := [Rack.backend script output]
      latest := none
      score := fun _ _ _ => 0
      evidence := fun _ => "" }
  text _ := "refused"

theorem Rack.handled (script : Nat → BackendStatus) (output : Nat → List Line) :
    (Rack.desk script output).site.Handled := by
  intro backend member job cloud allocation answer
  rw [List.mem_singleton.mp member] at answer
  cases answer
  intro empty
  have length := congrArg String.length empty
  simp at length

/-- The configuration of the club: one kind of capacity, at a dollar an hour. -/
def BrokerConfig.club : BrokerConfig where
  calendar := .plain
  gpuTypes := [⟨"t4", .usd, 1⟩]
  defaultBudgetUsd := 25
  defaultBudgetGpuHours := 8
  poolBudgetUsd := 500
  poolBudgetGpuHours := 400
  maxJobUsd := 50
  maxJobGpuHours := 24
  maxJobHours := 24
  maxCommandBytes := 4096
  maxQueuedJobsPerUser := 20
  maxRunningJobsPerUser := 4
  maxLogLinesPerJob := 20000
  maxLogLineBytes := 8192
  startupAllowanceHours := 0
  spotMaxPreemptionsWithoutProgress := 2
  placementOrder := ["spot"]
  reclaimEnabled := false
  idleThresholdPercent := 5
  idleWindow := 3600000000
  idleMinSamples := 10
  idleGrace := 3600000000
  idleSampleInterval := 60000000

/-- Ann joins, and asks for four hours. -/
def Operation.opening : List (Operation × Nat) :=
  [(.upsertUser "ann" none none none none, 40),
    (.submit ⟨"job", "ann", "train", "t4", 4, none, none, "real"⟩, 40)]

/-- A number of passes of the scheduler, each to its end. -/
def Operation.ticks (count : Nat) : List (Operation × Nat) := List.replicate count (.tick, 40)

/-- The club, its machines always running. -/
def Rack.running : Desk Rack := Rack.desk (fun _ => .running) fun _ => []

/-- The world of the club before it opens; its clock moves on by a step each time it is read. -/
def World.club (config : BrokerConfig) : World Rack :=
  World.new config ⟨0, 0⟩ fun reading => reading * twelveMinutes

end GpuBroker.Broker
