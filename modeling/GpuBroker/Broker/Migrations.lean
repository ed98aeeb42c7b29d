/-
This file is processes that open one database at the same time, each bringing it
up to the latest version.

A process reads the version once and then runs the scripts it found missing, each
in a transaction of its own with the row that records it. A script is therefore
never applied twice and what is recorded is what was built. But a process that
another one overtakes after its reading runs a script that is there already, and
raises; those that nobody overtakes are exactly those that return.
-/
import GpuBroker.Library.Program
import GpuBroker.Broker.Schema

namespace GpuBroker.Broker.Migrations

open Library Sql

/-! ### Migrating -/

/-- A row of `schema_migrations`. -/
structure Applied where
  version : Nat
  name : String
  appliedAt : String
  deriving DecidableEq

/-- A database: what it is built of, and the rows of `schema_migrations` once there is such a table. -/
structure Database where
  schema : Schema
  migrations : Option (List Applied)
  deriving DecidableEq

/-- The transactions of a migration: the table of versions, and the scripts. -/
inductive Commit where
  | versionTable
  | script (version : Nat)
  deriving DecidableEq

inductive Failure where
  /-- An old broker against a new database. -/
  | newer (had latest : Nat)
  | sql (problem : Problem)
  deriving DecidableEq

abbrev Op := Program Database Commit Failure

/-- Create `schema_migrations` unless it is there. -/
def Database.withVersions (database : Database) : Database :=
  { database with migrations := some (database.migrations.getD []) }

/-- The version recorded last, or nought. -/
def Database.version (database : Database) : Nat :=
  ((database.migrations.getD []).map Applied.version).max?.getD 0

/-- A script and the row that records it, in one transaction. -/
def Database.apply (database : Database) (migration : Migration) (moment : String) :
    Except Problem Database := do
  let schema ← runScript migration.script database.schema
  match database.migrations with
  | none => .error (.noTable "schema_migrations")
  | some rows =>
      if rows.any fun row => row.version = migration.version then
        .error (.notUnique "schema_migrations.version")
      else .ok ⟨schema, some (rows ++ [⟨migration.version, migration.name, moment⟩])⟩

def currentVersion : Op Nat := do
  Program.commit .versionTable fun database => .ok database.withVersions
  Program.read Database.version

/-- One migration of those missing; what raises is rolled back. -/
def migrateOne (moment : Nat → String) (applied : List Nat) (migration : Migration) : Op (List Nat) := do
  Program.commit (.script migration.version) fun database =>
    (database.apply migration (moment migration.version)).mapError .sql
  pure (applied ++ [migration.version])

/-- Bring the database up to the latest version; `moment` is when each script is put together. -/
def migrate (moment : Nat → String) : Op (List Nat) := do
  let had ← currentVersion
  if latestVersion < had then .fail (.newer had latestVersion)
  else (discover.filter fun migration => had < migration.version).foldlM (migrateOne moment) []

/-! ### Databases that were migrated -/

/-- A database of a version: it is what the migrations up to that version build, and these are the ones
recorded, each once. -/
structure Migrated (version : Nat) (database : Database) : Prop where
  known : version ≤ latestVersion
  schema : built version = .ok database.schema
  rows : (database.migrations.getD []).map (fun row => (row.version, row.name)) =
    (discover.take version).map fun migration => (migration.version, migration.name)

variable {reached index : Nat} {database : Database} {moment : Nat → String} {applied : List Nat}
  {program : Op (List Nat)}

theorem Migrated.versions (migrated : Migrated reached database) :
    (database.migrations.getD []).map Applied.version =
      (discover.take reached).map Migration.version := by
  have firsts := congrArg (List.map Prod.fst) migrated.rows
  simpa only [List.map_map, Function.comp_def] using firsts

theorem take_versions : ∀ version ≤ latestVersion,
    ((discover.take version).map Migration.version).max?.getD 0 = version := by decide

theorem Migrated.version (migrated : Migrated reached database) : database.version = reached := by
  unfold Database.version
  rw [migrated.versions]
  exact take_versions reached migrated.known

theorem Migrated.withVersions (migrated : Migrated reached database) :
    Migrated reached database.withVersions :=
  ⟨migrated.known, migrated.schema, migrated.rows⟩

/-- What is missing from a version on are the migrations behind it. -/
theorem filter_discover : ∀ had ≤ latestVersion,
    discover.filter (fun migration => had < migration.version) = discover.drop had := by
  decide +kernel

/-- What is built up to a version builds on what was built before. -/
theorem built_succ {schema : Schema} (missing : reached < discover.length)
    (before : built reached = .ok schema) :
    built (reached + 1) = runScript discover[reached].script schema := by
  unfold built at before ⊢
  rw [List.take_succ_eq_append_getElem missing, List.foldlM_append, before]
  show (runScript discover[reached].script schema >>= pure) = _
  rw [bind_pure]

theorem discover_version : ∀ (index : Nat) (inside : index < discover.length),
    discover[index].version = index + 1 := by decide

/-- The next script builds the next version, and is recorded. -/
theorem apply_next (migrated : Migrated reached database) (there : database.migrations.isSome = true)
    (missing : reached < discover.length) (stamp : String) :
    ∃ next, database.apply discover[reached] stamp = .ok next ∧ Migrated (reached + 1) next ∧
      next.migrations.isSome = true := by
  obtain ⟨rows, present⟩ := Option.isSome_iff_exists.mp there
  have versions := migrated.versions
  have recorded := migrated.rows
  rw [present, Option.getD_some] at versions recorded
  have built : ∃ schema, built (reached + 1) = .ok schema := by
    have runs := built_isSome (reached + 1) missing
    cases builds : built (reached + 1) with
    | ok schema => exact ⟨schema, rfl⟩
    | error problem =>
        rw [builds] at runs
        cases runs
  obtain ⟨schema, builds⟩ := built
  have runs : runScript discover[reached].script database.schema = .ok schema :=
    (built_succ missing migrated.schema).symm.trans builds
  have fresh : (rows.any fun row => row.version = discover[reached].version) = false := by
    refine Bool.eq_false_iff.mpr fun found => ?_
    obtain ⟨row, member, same⟩ := List.any_eq_true.mp found
    have listed : row.version ∈ (discover.take reached).map Migration.version :=
      versions ▸ List.mem_map_of_mem member
    obtain ⟨migration, within, equal⟩ := List.mem_map.mp listed
    obtain ⟨place, inside, rfl⟩ := List.mem_take_iff_getElem.mp within
    rw [discover_version] at equal
    rw [of_decide_eq_true same, discover_version] at equal
    omega
  refine ⟨⟨schema, some (rows ++ [⟨discover[reached].version, discover[reached].name, stamp⟩])⟩, ?_,
    ⟨missing, builds, ?_⟩, rfl⟩
  · unfold Database.apply
    rw [runs, present]
    show (if _ then _ else _) = _
    rw [if_neg (by rw [fresh]; decide)]
  · show (rows ++ [_]).map _ = _
    rw [List.map_append, recorded, List.take_succ_eq_append_getElem missing, List.map_append]
    rfl

/-- A script that was applied is rejected. -/
theorem apply_again (migrated : Migrated reached database) (there : database.migrations.isSome = true)
    (before : index < reached) (inside : index < discover.length) (stamp : String) :
    ∃ problem, database.apply discover[index] stamp = .error problem := by
  obtain ⟨rows, present⟩ := Option.isSome_iff_exists.mp there
  have versions := migrated.versions
  rw [present, Option.getD_some] at versions
  have recorded : (rows.any fun row => row.version = discover[index].version) = true := by
    have listed : discover[index].version ∈ rows.map Applied.version := by
      rw [versions]
      exact List.mem_map_of_mem (List.mem_take_iff_getElem.mpr ⟨index, by omega, rfl⟩)
    obtain ⟨row, member, same⟩ := List.mem_map.mp listed
    exact List.any_eq_true.mpr ⟨row, member, decide_eq_true same⟩
  unfold Database.apply
  cases runScript discover[index].script database.schema with
  | error problem => exact ⟨problem, rfl⟩
  | ok schema =>
      rw [present]
      exact ⟨.notUnique "schema_migrations.version", if_pos recorded⟩

/-! ### Where a process stands -/

/-- The migrations from an index on, one after another. -/
def remaining (moment : Nat → String) (index : Nat) (applied : List Nat) : Op (List Nat) :=
  (discover.drop index).foldlM (migrateOne moment) applied

/-- A process that is to read the version. -/
def reading (moment : Nat → String) : Op (List Nat) :=
  Program.read Database.version >>= fun had =>
    if latestVersion < had then .fail (.newer had latestVersion)
    else (discover.filter fun migration => had < migration.version).foldlM (migrateOne moment) []

theorem step_migrate : (migrate moment).step database = (reading moment, database.withVersions) := rfl

theorem step_reading (migrated : Migrated reached database) :
    (reading moment).step database = (remaining moment reached [], database) := by
  have read : (reading moment).step database =
      (if latestVersion < database.version then .fail (.newer database.version latestVersion)
        else (discover.filter fun migration => database.version < migration.version).foldlM
          (migrateOne moment) [], database) := rfl
  rw [read, migrated.version, if_neg (not_lt.mpr migrated.known), filter_discover _ migrated.known]
  rfl

theorem remaining_done (moment : Nat → String) (applied : List Nat) :
    remaining moment latestVersion applied = .done applied := by
  unfold remaining latestVersion
  rw [List.drop_length]
  rfl

theorem remaining_eq (missing : index < discover.length) :
    remaining moment index applied =
      migrateOne moment applied discover[index] >>= remaining moment (index + 1) := by
  unfold remaining
  rw [List.drop_eq_getElem_cons missing, List.foldlM_cons]

/-- A process is between reading the version and its last script. -/
def underway (program : Op (List Nat)) : Bool :=
  match program.pending with
  | some (.script _) => true
  | _ => false

theorem underway_remaining (missing : index < discover.length) :
    underway (remaining moment index applied) = true := by
  rw [remaining_eq missing]
  rfl

theorem step_remaining (missing : index < discover.length) :
    (remaining moment index applied).step database =
      match database.apply discover[index] (moment discover[index].version) with
      | .ok next => (remaining moment (index + 1) (applied ++ [discover[index].version]), next)
      | .error problem => (.fail (.sql problem), database) := by
  rw [remaining_eq missing]
  show Program.step (Program.access _ _ _) database = _
  unfold Program.step
  simp only
  cases database.apply discover[index] (moment discover[index].version) <;> rfl

/-- A process that nobody overtook: what it is to do next is what is missing. -/
inductive OnTrack (moment : Nat → String) (reached : Nat) (database : Database) :
    Op (List Nat) → Prop
  | fresh : OnTrack moment reached database (migrate moment)
  | opened (there : database.migrations.isSome = true) : OnTrack moment reached database (reading moment)
  | midway (applied : List Nat) (there : database.migrations.isSome = true)
      (missing : reached < discover.length) :
      OnTrack moment reached database (remaining moment reached applied)
  | returned (applied : List Nat) (latest : reached = latestVersion) :
      OnTrack moment reached database (.done applied)

/-- A process that was overtaken: what it is to do next is done, or it has raised. -/
inductive Overtaken (moment : Nat → String) (reached : Nat) (database : Database) :
    Op (List Nat) → Prop
  | midway (index : Nat) (applied : List Nat) (there : database.migrations.isSome = true)
      (behind : index < reached) : Overtaken moment reached database (remaining moment index applied)
  | raised (failure : Failure) : Overtaken moment reached database (.fail failure)

/-- How a turn moves the database: it leaves it, or it is the next version's. -/
inductive Advance (reached : Nat) (database next : Database) : Nat → Prop
  | still (same : next = database ∨ next = database.withVersions) : Advance reached database next reached
  | onward (missing : reached < discover.length) (there : next.migrations.isSome = true) :
      Advance reached database next (reached + 1)

theorem withVersions_there (there : database.migrations.isSome = true) :
    database.withVersions = database := by
  obtain ⟨rows, present⟩ := Option.isSome_iff_exists.mp there
  unfold Database.withVersions
  rw [present, Option.getD_some, ← present]

/-- What remains from a version on keeps a process on track. -/
theorem onTrack_remaining (known : reached ≤ latestVersion) (there : database.migrations.isSome = true)
    (applied : List Nat) : OnTrack moment reached database (remaining moment reached applied) := by
  rcases lt_or_eq_of_le known with missing | latest
  · exact .midway applied there missing
  · rw [latest, remaining_done]
    exact .returned applied rfl

/-- A turn of a process that is on track leaves it there. -/
theorem onTrack_step (migrated : Migrated reached database)
    (onTrack : OnTrack moment reached database program) :
    ∃ later, Migrated later (program.step database).2 ∧
      OnTrack moment later (program.step database).2 (program.step database).1 ∧
      Advance reached database (program.step database).2 later := by
  cases onTrack with
  | fresh =>
      rw [step_migrate]
      exact ⟨reached, migrated.withVersions, .opened rfl, .still (Or.inr rfl)⟩
  | opened there =>
      rw [step_reading migrated]
      exact ⟨reached, migrated, onTrack_remaining migrated.known there [], .still (Or.inl rfl)⟩
  | midway applied there missing =>
      obtain ⟨next, ran, grown, present⟩ :=
        apply_next migrated there missing (moment discover[reached].version)
      rw [step_remaining missing, ran]
      exact ⟨reached + 1, grown, onTrack_remaining grown.known present _, .onward missing present⟩
  | returned applied latest => exact ⟨reached, migrated, .returned applied latest, .still (Or.inl rfl)⟩

/-- A turn of a process that was overtaken changes nothing. -/
theorem overtaken_step (migrated : Migrated reached database)
    (overtaken : Overtaken moment reached database program) :
    (program.step database).2 = database ∧
      Overtaken moment reached database (program.step database).1 := by
  cases overtaken with
  | midway index applied there behind =>
      have inside : index < discover.length := lt_of_lt_of_le behind migrated.known
      obtain ⟨problem, failed⟩ := apply_again migrated there behind inside (moment discover[index].version)
      rw [step_remaining inside, failed]
      exact ⟨rfl, .raised _⟩
  | raised failure => exact ⟨rfl, .raised failure⟩

theorem Advance.le {next : Database} {later : Nat} (advance : Advance reached database next later) :
    reached ≤ later := by
  cases advance with
  | still same => exact le_rfl
  | onward missing there => exact Nat.le_succ reached

theorem Advance.there {next : Database} {later : Nat} (advance : Advance reached database next later)
    (there : database.migrations.isSome = true) : next.migrations.isSome = true := by
  cases advance with
  | still same =>
      rcases same with rfl | rfl
      · exact there
      · rfl
  | onward missing present => exact present

/-- A process that was overtaken remains so while others take their turns. -/
theorem Overtaken.others {next : Database} {later : Nat}
    (overtaken : Overtaken moment reached database program) (advance : Advance reached database next later) :
    Overtaken moment later next program := by
  cases overtaken with
  | midway index applied there behind =>
      exact .midway index applied (advance.there there) (lt_of_lt_of_le behind advance.le)
  | raised failure => exact .raised failure

/-- A process on track stays there while others take their turns, unless it is midway and the database
moves on. -/
theorem OnTrack.others {next : Database} {later : Nat} (onTrack : OnTrack moment reached database program)
    (migrated : Migrated reached database) (also : Migrated later next)
    (advance : Advance reached database next later) :
    (OnTrack moment later next program ∧ (underway program = true → next = database)) ∨
      (Overtaken moment later next program ∧ underway program = true ∧ next ≠ database) := by
  have moved : later = reached + 1 → next ≠ database := by
    rintro onward rfl
    have versions := also.version.symm.trans migrated.version
    omega
  cases onTrack with
  | fresh => exact Or.inl ⟨.fresh, nofun⟩
  | opened there => exact Or.inl ⟨.opened (advance.there there), nofun⟩
  | midway applied there missing =>
      cases advance with
      | still same =>
          have kept : next = database := by
            rcases same with rfl | rfl
            · rfl
            · exact withVersions_there there
          subst kept
          exact Or.inl ⟨.midway applied there missing, fun _ => rfl⟩
      | onward _ present =>
          exact Or.inr ⟨.midway reached applied present (Nat.lt_succ_self reached),
            underway_remaining missing, moved rfl⟩
  | returned applied latest =>
      cases advance with
      | still same => exact Or.inl ⟨.returned applied latest, nofun⟩
      | onward missing _ => exact absurd latest (Nat.ne_of_lt missing)

/-! ### Processes that take turns -/

section Turns

variable {Process : Type} [DecidableEq Process]

/-- No turn of another process changes the database while a process is midway. -/
def Undisturbed (one : Process) :
    List Process → (Process → Op (List Nat)) → Database → Prop
  | [], _, _ => True
  | turn :: turns, programs, database =>
      let after := (programs turn).step database
      (turn ≠ one → underway (programs one) = true → after.2 = database) ∧
        Undisturbed one turns (Function.update programs turn after.1) after.2

instance decidableUndisturbed (one : Process) : ∀ turns programs database,
    Decidable (Undisturbed one turns programs database)
  | [], _, _ => isTrue trivial
  | turn :: turns, programs, database =>
      have : Decidable (Undisturbed one turns
          (Function.update programs turn ((programs turn).step database).1)
          ((programs turn).step database).2) := decidableUndisturbed one turns _ _
      inferInstanceAs (Decidable (_ ∧ _))

/-- A process is on track just when something holds. -/
structure Stands (good : Prop) (moment : Nat → String) (reached : Nat) (database : Database)
    (program : Op (List Nat)) : Prop where
  onTrack : good → OnTrack moment reached database program
  overtaken : ¬ good → Overtaken moment reached database program

variable {moments : Process → Nat → String} {programs : Process → Op (List Nat)}

/-- A turn takes off its track whom it disturbs, and no one else. -/
theorem stands_step (turn : Process) {good : Process → Prop} (migrated : Migrated reached database)
    (stands : ∀ one, Stands (good one) (moments one) reached database (programs one)) :
    ∃ later, reached ≤ later ∧ Migrated later ((programs turn).step database).2 ∧
      ∀ one, Stands (good one ∧ (turn ≠ one → underway (programs one) = true →
          ((programs turn).step database).2 = database)) (moments one) later
        ((programs turn).step database).2
        (Function.update programs turn ((programs turn).step database).1 one) := by
  have others : ∀ {later : Nat}, Migrated later ((programs turn).step database).2 →
      Advance reached database ((programs turn).step database).2 later → ∀ one, turn ≠ one →
        Stands (good one ∧ (turn ≠ one → underway (programs one) = true →
          ((programs turn).step database).2 = database)) (moments one) later
          ((programs turn).step database).2
          (Function.update programs turn ((programs turn).step database).1 one) := by
    intro later also advance one apart
    rw [Function.update_of_ne apart.symm]
    by_cases fine : good one
    · rcases ((stands one).onTrack fine).others migrated also advance with
        ⟨stays, unmoved⟩ | ⟨lost, between, moved⟩
      · exact ⟨fun _ => stays, fun disturbed => absurd ⟨fine, fun _ => unmoved⟩ disturbed⟩
      · exact ⟨fun both => absurd (both.2 apart between) moved, fun _ => lost⟩
    · exact ⟨fun both => absurd both.1 fine, fun _ => ((stands one).overtaken fine).others advance⟩
  by_cases fine : good turn
  · obtain ⟨later, also, onTrack, advance⟩ := onTrack_step migrated ((stands turn).onTrack fine)
    refine ⟨later, advance.le, also, fun one => ?_⟩
    by_cases same : turn = one
    · subst same
      rw [Function.update_self]
      exact ⟨fun _ => onTrack, fun disturbed => absurd ⟨fine, fun apart => absurd rfl apart⟩ disturbed⟩
    · exact others also advance one same
  · obtain ⟨still, overtaken⟩ := overtaken_step migrated ((stands turn).overtaken fine)
    have also : Migrated reached ((programs turn).step database).2 := still.symm ▸ migrated
    refine ⟨reached, le_rfl, also, fun one => ?_⟩
    by_cases same : turn = one
    · subst same
      rw [Function.update_self, still]
      exact ⟨fun both => absurd both.1 fine, fun _ => overtaken⟩
    · exact others also (.still (Or.inl still)) one same

/-- Whatever turns are taken, a process stays on track just when it is not disturbed. -/
theorem stands_interleave (turns : List Process) {good : Process → Prop}
    (migrated : Migrated reached database)
    (stands : ∀ one, Stands (good one) (moments one) reached database (programs one)) :
    ∃ later, reached ≤ later ∧ Migrated later (Program.interleave turns programs database).2 ∧
      ∀ one, Stands (good one ∧ Undisturbed one turns programs database) (moments one) later
        (Program.interleave turns programs database).2
        ((Program.interleave turns programs database).1 one) := by
  induction turns generalizing programs database reached good with
  | nil =>
      refine ⟨reached, le_rfl, migrated, fun one => ?_⟩
      exact ⟨fun both => (stands one).onTrack both.1,
        fun off => (stands one).overtaken fun fine => off ⟨fine, trivial⟩⟩
  | cons turn turns inductionHypothesis =>
      obtain ⟨middle, grows, also, stood⟩ := stands_step turn migrated stands
      obtain ⟨later, more, last, standing⟩ := inductionHypothesis also stood
      refine ⟨later, grows.trans more, last, fun one => ?_⟩
      have whole := standing one
      rw [and_assoc] at whole
      exact whole

/-- What a process that has ended came to. -/
theorem OnTrack.ended (onTrack : OnTrack moment reached database program) (ends : program.ended = true) :
    (∃ applied, program.answer = some applied) ∧ reached = latestVersion := by
  cases onTrack with
  | fresh => cases ends
  | opened => cases ends
  | midway applied there missing =>
      rw [remaining_eq missing] at ends
      cases ends
  | returned applied latest => exact ⟨⟨applied, rfl⟩, latest⟩

theorem Overtaken.unanswered (known : reached ≤ latestVersion)
    (overtaken : Overtaken moment reached database program) : program.answer = none := by
  cases overtaken with
  | midway index applied there behind =>
      rw [remaining_eq (lt_of_lt_of_le behind known)]
      rfl
  | raised failure => rfl

/-- Processes that open one database of any version at the same time, in any turns, of which any may be
killed anywhere: the database is always one of a version, the scripts up to it applied once each; a
process that has ended has returned, with the database at the latest version, just when no other changed
the database while it was midway; and a process that is given turns again and again ends. -/
theorem migrate_returns_iff (moments : Process → Nat → String) (migrated : Migrated reached database)
    (turns : List Process) :
    let programs := fun one => migrate (moments one)
    let final := Program.interleave turns programs database
    (∃ later, reached ≤ later ∧ Migrated later final.2) ∧
      (∀ one, (final.1 one).ended = true →
        ((∃ applied, (final.1 one).answer = some applied ∧ Migrated latestVersion final.2) ↔
          Undisturbed one turns programs database)) ∧
      ∀ (one : Process) (schedule : Nat → Process), (∀ start, ∃ later ≥ start, schedule later = one) →
        ∃ length, ((Program.interleave ((List.range length).map schedule) programs database).1
          one).ended = true := by
  intro programs final
  have fresh : ∀ one, Stands True (moments one) reached database (programs one) :=
    fun one => ⟨fun _ => .fresh, fun off => absurd trivial off⟩
  obtain ⟨later, grows, last, stands⟩ := stands_interleave turns migrated fresh
  refine ⟨⟨later, grows, last⟩, fun one ended => ?_, fun one schedule again =>
    Program.interleave_ends (programs one) programs rfl database schedule again⟩
  constructor
  · rintro ⟨applied, answered, _⟩
    by_contra disturbed
    have none := ((stands one).overtaken fun both => disturbed both.2).unanswered last.known
    rw [none] at answered
    cases answered
  · intro undisturbed
    obtain ⟨⟨applied, answered⟩, latest⟩ := ((stands one).onTrack ⟨trivial, undisturbed⟩).ended ended
    exact ⟨applied, answered, latest ▸ last⟩

end Turns

/-- Two processes that open a new database. -/
def openings (turns : List Bool) : (Bool → Op (List Nat)) × Database :=
  Program.interleave turns (fun _ => migrate fun _ => "2026-01-01T00:00:00") ⟨.empty, none⟩

theorem migrated_new : Migrated 0 ⟨.empty, none⟩ := ⟨Nat.zero_le _, rfl, rfl⟩

/-- A process that has the new database to itself returns, and leaves it at the latest version. -/
theorem opening_returns : ∃ applied, ((openings (List.replicate 15 true)).1 true).answer = some applied ∧
    Migrated latestVersion (openings (List.replicate 15 true)).2 :=
  ((migrate_returns_iff (fun _ _ => "2026-01-01T00:00:00") migrated_new (List.replicate 15 true)).2.1
    true (by decide +kernel)).mpr (by decide +kernel)

/-- Both read that nothing was applied; the one that is second to run the first script raises. -/
theorem opening_raises :
    ((openings [true, false, true, false, true, false]).1 false).raised =
        some (.sql (.taken "users")) ∧
      (openings [true, false, true, false, true, false]).2.version = 1 := by
  decide +kernel

end GpuBroker.Broker.Migrations
