/-
This file is what the calls of the lab backend do, access by access: each runs a
command on a host or notes something, and leaves the machines to themselves
otherwise.

A contract that carries these accesses is one under which every call is safe, so
a property of all runs needs to be looked at for one command and one note only.
What is
remembered of a host was found of it, with its cards told apart.
-/
import GpuBroker.Library.Calls
import GpuBroker.Broker.Lab

namespace GpuBroker.Broker

open Library

namespace Lab

/-! ### Accesses -/

/-- Does a command start a run? -/
def Command.starts : Command → Bool
  | launch _ => true
  | _ => false

/-- Are the cards told apart by their index? -/
def Apart (gpus : List GpuInfo) : Prop := (gpus.map GpuInfo.index).Nodup

/-- What was found of a host, with its cards told apart. -/
structure Proper (hostname : String) (health : HostHealth) : Prop where
  named : health.hostname = hostname
  apart : Apart health.gpus

/-- What is remembered of each host was found of it. -/
def Pool.Filed (pool : Pool) : Prop :=
  ∀ hostname health, pool.memory.health hostname = some health → Proper hostname health

/-- Something was noted, and nothing else happened. -/
structure Noted (before after : Pool) : Prop where
  machines : after.machines = before.machines
  attempts : after.attempts = before.attempts
  filed : before.Filed → after.Filed

theorem Noted.refl (pool : Pool) : Noted pool pool := ⟨rfl, rfl, id⟩

/-- A contract of a program that is alone, under which it may note what it likes and run the commands that start
nothing. -/
structure Carries (conditions : Conditions) (contract : Contract Pool Sent String) : Prop where
  alone : ∀ before after, contract.rely before after → after = before
  raises : ∀ error, contract.raises error
  filed : ∀ pool, contract.invariant pool → pool.Filed
  notes : ∀ before after, Noted before after → contract.invariant before →
    contract.invariant after ∧ contract.guarantee none before after
  tries : ∀ pool sent, sent.command.starts = false → contract.invariant pool → contract.allowed sent pool →
    contract.invariant (pool.tried conditions sent) ∧
      contract.guarantee (some sent) pool (pool.tried conditions sent)

/-- A contract under which it may also start runs. -/
structure CarriesAll (conditions : Conditions) (contract : Contract Pool Sent String) : Prop
    extends Carries conditions contract where
  starts : ∀ pool sent, sent.command.starts = true → contract.invariant pool → contract.allowed sent pool →
    contract.invariant (pool.tried conditions sent) ∧
      contract.guarantee (some sent) pool (pool.tried conditions sent)

/-- A result that a command can come to. -/
def Possible (conditions : Conditions) (hostname : String) (command : Command) (result : CommandResult) : Prop :=
  ∃ pool : Pool, ∃ again, pool.hears conditions ⟨hostname, command, again⟩ = .result result

/-- A driver tells its cards apart. -/
theorem Possible.apart {conditions : Conditions} {hostname : String} {result : CommandResult}
    (possible : Possible conditions hostname .gpuQuery result) : Apart (parseGpus result.stdout) := by
  obtain ⟨pool, again, heard⟩ := possible
  unfold Pool.hears at heard
  split at heard
  · cases heard
    exact (conditions.facts pool.attempts hostname).distinct
  · cases heard
    exact List.nodup_nil
  · cases heard
  · cases heard

section Blocks

variable {conditions : Conditions} {contract : Contract Pool Sent String} {pool : Pool} {hostname : String}

namespace Carries

/-- Nothing is asked of a result. -/
theorem done {α : Type} (result : α) :
    (pure result : Ssh α).Safe contract (fun _ _ => True) pool := fun _ _ _ => trivial

theorem fail {α : Type} (carries : Carries conditions contract) (error : String) (post : α → Pool → Prop) :
    (.fail error : Ssh α).Safe contract post pool := fun _ _ _ => carries.raises error

theorem note (carries : Carries conditions contract) {change : Remembered → Remembered}
    (filed : ∀ pool : Pool, pool.Filed → { pool with memory := change pool.memory }.Filed) :
    (Lab.note change).Safe contract (fun _ _ => True) pool := by
  intro current _ kept _
  obtain ⟨invariant, owed⟩ := carries.notes current { current with memory := change current.memory }
    ⟨rfl, rfl, filed current⟩ kept
  exact ⟨invariant, owed, fun _ _ _ => trivial⟩

theorem now (carries : Carries conditions contract) :
    (Lab.now conditions).Safe contract (fun _ _ => True) pool := by
  intro current _ kept _
  obtain ⟨invariant, owed⟩ := carries.notes current { current with readings := current.readings + 1 }
    ⟨rfl, rfl, id⟩ kept
  exact ⟨invariant, owed, fun _ _ _ => trivial⟩

theorem recollect {α : Type} (carries : Carries conditions contract) (view : Remembered → α) :
    (Lab.recollect view).Safe contract (fun value last => value = view last.memory) pool := by
  intro current _ kept _
  obtain ⟨invariant, owed⟩ := carries.notes current current (Noted.refl current) kept
  refine ⟨invariant, owed, fun last moved _ => ?_⟩
  rw [carries.alone _ _ moved]

/-- An attempt is heard as one of its command can be. -/
theorem attempt (carries : Carries conditions contract) {sent : Sent} (plain : sent.command.starts = false) :
    (Lab.attempt conditions sent).Safe contract
      (fun heard _ => ∀ result, heard = .result result →
        Possible conditions sent.hostname sent.command result) pool := by
  intro current _ kept permitted
  obtain ⟨invariant, owed⟩ := carries.tries current sent plain kept (permitted sent rfl)
  exact ⟨invariant, owed, fun _ _ _ result same => ⟨current, sent.again, same⟩⟩

theorem transport (carries : Carries conditions contract) {command : Command} (plain : command.starts = false) :
    (Lab.transport conditions hostname command).Safe contract
      (fun answer _ => ∀ result, answer = .ok result → Possible conditions hostname command result) pool := by
  have first : ∀ again, (Lab.attempt conditions ⟨hostname, command, again⟩).Safe contract
      (fun heard _ => ∀ result, heard = .result result → Possible conditions hostname command result) pool :=
    fun again => carries.attempt plain
  refine (first false).bind fun heard current kept possible => ?_
  cases heard with
  | result result => exact Program.Safe.pure fun _ _ _ other same => by cases same; exact possible _ rfl
  | failed text => exact Program.Safe.pure fun _ _ _ other same => nomatch same
  | broken text =>
      refine (carries.attempt plain).bind fun heard last kept possible => ?_
      cases heard with
      | result result => exact Program.Safe.pure fun _ _ _ other same => by cases same; exact possible _ rfl
      | failed text | broken text => exact Program.Safe.pure fun _ _ _ other same => nomatch same

/-- A command whose failure is raised. -/
theorem insist (carries : Carries conditions contract) {command : Command} (plain : command.starts = false) :
    (Lab.insist conditions hostname command).Safe contract (fun _ _ => True) pool := by
  refine (carries.transport plain).bind fun answer current kept _ => ?_
  cases answer with
  | ok result => exact done result
  | error text => exact carries.fail text _

/-! ### Health -/

open LocalBackend

theorem checkHost (carries : Carries conditions contract) (now : Time) :
    (checkHost conditions hostname now).Safe contract (fun found _ => Proper hostname found) pool := by
  have nothing : Apart [] := List.nodup_nil
  have unfit : ∀ home state reason gpus tested, Apart gpus →
      Proper hostname (unhealthy hostname now home state reason gpus tested) :=
    fun _ _ _ _ _ apart => ⟨rfl, apart⟩
  unfold LocalBackend.checkHost
  refine (carries.transport rfl).bind fun answer current kept _ => ?_
  cases answer with
  | error text => exact Program.Safe.pure fun _ _ _ => unfit _ _ _ _ _ nothing
  | ok alive =>
    simp only
    split
    · exact Program.Safe.pure fun _ _ _ => unfit _ _ _ _ _ nothing
    · next home _ =>
      refine (carries.transport rfl).bind fun answer current kept possible => ?_
      cases answer with
      | error text => exact Program.Safe.pure fun _ _ _ => unfit _ _ _ _ _ nothing
      | ok smi =>
        have apart : Apart (parseGpus smi.stdout) := (possible smi rfl).apart
        simp only
        split
        · exact Program.Safe.pure fun _ _ _ => unfit _ _ _ _ _ nothing
        · split
          · exact Program.Safe.pure fun _ _ _ => unfit _ _ _ _ _ nothing
          · exact Program.Safe.pure fun _ _ _ => unfit _ _ _ _ _ apart
          · refine (carries.transport rfl).bind fun answer current kept _ => ?_
            cases answer with
            | error text => exact Program.Safe.pure fun _ _ _ => unfit _ _ _ _ _ apart
            | ok probe =>
              by_cases bites : (if probe.ok then parseLimitProbe probe.stdout else none) = some probeMemoryBytes
              · simp only [bites, ne_eq, not_true_eq_false, if_false]
                refine (carries.insist rfl).bind fun mps current kept _ => ?_
                exact Program.Safe.pure fun _ _ _ => ⟨rfl, apart⟩
              · simp only [bites, ne_eq, not_false_eq_true, if_true]
                exact Program.Safe.pure fun _ _ _ => unfit _ _ _ _ _ apart

theorem withManualDrain (carries : Carries conditions contract) {health : HostHealth}
    (proper : Proper hostname health) :
    (LocalBackend.withManualDrain health).Safe contract (fun found _ => Proper hostname found) pool := by
  refine (carries.recollect _).bind fun reason current kept _ => ?_
  cases reason with
  | none => exact Program.Safe.pure fun _ _ _ => proper
  | some reason => exact Program.Safe.pure fun _ _ _ => ⟨proper.named, proper.apart⟩

/-- What was found of a host may be remembered of it. -/
theorem filed_update {health : HostHealth} (proper : Proper hostname health) (pool : Pool) (filed : pool.Filed) :
    { pool with memory := { pool.memory with
        health := Function.update pool.memory.health hostname (some health) } }.Filed := by
  intro other found same
  have same : Function.update pool.memory.health hostname (some health) other = some found := same
  by_cases here : other = hostname
  · subst here
    rw [Function.update_self] at same
    cases same
    exact proper
  · rw [Function.update_of_ne here] at same
    exact filed other found same

variable {backend : LocalBackend}

theorem healthOf (carries : Carries conditions contract) (refresh : Bool) (now : Time) :
    (backend.healthOf conditions refresh now hostname).Safe contract
      (fun found _ => Proper hostname found) pool := by
  refine (carries.recollect _).bind fun known current kept remembered => ?_
  split
  · next health young =>
    have here := (Option.filter_eq_some_iff.mp young).1
    exact carries.withManualDrain (carries.filed _ kept hostname health (remembered.symm.trans here))
  · refine (carries.checkHost now).bind fun found _ _ proper => ?_
    refine (carries.note (filed_update proper)).bind fun _ _ _ _ => ?_
    exact carries.withManualDrain proper

/-- What is found of hosts is found of those that are configured. -/
theorem health (carries : Carries conditions contract) (refresh : Bool) :
    (backend.health conditions refresh).Safe contract
      (fun all _ => ∀ health ∈ all, ∃ hostname ∈ backend.config.hosts, Proper hostname health) pool := by
  refine carries.now.bind fun now current kept _ => ?_
  exact Program.Safe.mapM (fun _ _ _ _ _ proper => proper) (fun _ _ _ _ _ _ proper => proper)
    (fun _ _ _ _ => carries.healthOf refresh now) kept

/-! ### Calls -/

/-- The result of a loop is of no interest. -/
theorem mapM {Item Other : Type} (body : Item → Ssh Other) {items : List Item} (kept : contract.invariant pool)
    (each : ∀ item ∈ items, ∀ pool, contract.invariant pool → (body item).Safe contract (fun _ _ => True) pool) :
    (items.mapM body).Safe contract (fun _ _ => True) pool := by
  have all : (items.mapM body).Safe contract (fun values _ => ∀ value ∈ values, ∃ item ∈ items, True) pool :=
    Program.Safe.mapM (fun _ _ _ _ _ holds => holds) (fun _ _ _ _ _ _ holds => holds) each kept
  exact all.weaken fun _ _ _ _ => trivial

theorem liveOn (carries : Carries conditions contract) :
    (backend.liveOn conditions hostname).Safe contract (fun _ _ => True) pool := by
  unfold LocalBackend.liveOn
  split
  · exact done _
  · refine ((carries.recollect _).bind fun _ _ _ _ => done _).bind fun root _ _ _ => ?_
    refine (carries.transport rfl).bind fun answer _ _ _ => ?_
    cases answer with
    | error text | ok result => exact done _

theorem freeOn (carries : Carries conditions contract) (health : HostHealth) :
    (backend.freeOn conditions health).Safe contract (fun _ _ => True) pool :=
  carries.liveOn.bind fun _ _ _ _ => done _

theorem pickHost (carries : Carries conditions contract) (job : Job) :
    (backend.pickHost conditions job).Safe contract (fun _ _ => True) pool := by
  unfold LocalBackend.pickHost
  split
  · exact carries.fail _ _
  · refine (carries.health false).bind fun all _ kept _ => ?_
    split
    · exact carries.fail _ _
    · simp only
      split
      · exact carries.fail _ _
      · refine (mapM _ kept fun health _ _ _ => (carries.freeOn health).bind fun _ _ _ _ => done _).bind
          fun free _ _ _ => ?_
        split
        · exact carries.fail _ _
        · exact done _

theorem pickDevice (carries : Carries conditions contract) (health : HostHealth) :
    (backend.pickDevice conditions health).Safe contract (fun _ _ => True) pool :=
  carries.liveOn.bind fun _ _ _ _ => done _

theorem startMps (carries : Carries conditions contract) :
    (LocalBackend.startMps conditions hostname).Safe contract (fun _ _ => True) pool := by
  refine (carries.insist rfl).bind fun result _ _ _ => ?_
  split
  · exact done _
  · exact carries.fail _ _

theorem ensureMps (carries : Carries conditions contract) (health : HostHealth) :
    (LocalBackend.ensureMps conditions health).Safe contract (fun _ _ => True) pool := by
  refine (carries.recollect _).bind fun started _ _ _ => ?_
  split
  · exact done _
  · exact carries.startMps.bind fun _ _ _ _ => carries.note fun _ filed => filed

theorem freeSlots (carries : Carries conditions contract) (gpuType : String) :
    (backend.freeSlots conditions gpuType).Safe contract (fun _ _ => True) pool := by
  unfold LocalBackend.freeSlots
  split
  · exact done _
  · refine ((carries.health false).bind fun _ _ _ _ => done _).bind fun healthy _ kept _ => ?_
    exact (mapM _ kept fun health _ _ _ => carries.freeOn health).bind fun _ _ _ _ => done _

theorem markUnreachable (carries : Carries conditions contract) (reason : String) :
    (LocalBackend.markUnreachable conditions hostname reason).Safe contract (fun _ _ => True) pool := by
  refine carries.now.bind fun now _ _ _ => carries.note fun pool filed => ?_
  have apart : Apart ((pool.memory.health hostname).elim [] HostHealth.gpus) := by
    cases known : pool.memory.health hostname with
    | none => exact List.nodup_nil
    | some health => exact (filed hostname health known).apart
  have proper : Proper hostname (unhealthy hostname now ((pool.memory.health hostname).elim [] HostHealth.home)
      .unreachable reason ((pool.memory.health hostname).elim [] HostHealth.gpus) false) := ⟨rfl, apart⟩
  exact filed_update proper pool filed

theorem poll (carries : Carries conditions contract) (handle : String) :
    (backend.poll conditions handle).Safe contract (fun _ _ => True) pool := by
  unfold LocalBackend.poll
  simp only
  split
  · exact done _
  · refine (carries.recollect _).bind fun known _ _ _ => ?_
    split
    · exact done _
    · refine ((carries.recollect _).bind fun _ _ _ _ => done _).bind fun root _ _ _ => ?_
      refine (carries.transport rfl).bind fun answer _ _ _ => ?_
      cases answer with
      | error text => exact (carries.markUnreachable text).bind fun _ _ _ _ => done _
      | ok result => exact done _

theorem fetchLogs (carries : Carries conditions contract) (handle : String) (after : Nat) :
    (backend.fetchLogs conditions handle after).Safe contract (fun _ _ => True) pool := by
  unfold LocalBackend.fetchLogs
  simp only
  split
  · exact done _
  · refine ((carries.recollect _).bind fun _ _ _ _ => done _).bind fun root _ _ _ => ?_
    refine (carries.transport rfl).bind fun answer _ _ _ => ?_
    cases answer with
    | error text | ok result => exact done _

theorem terminate (carries : Carries conditions contract) (handle reason : String) :
    (backend.terminate conditions handle reason).Safe contract (fun _ _ => True) pool := by
  unfold LocalBackend.terminate
  simp only
  split
  · exact done _
  · exact (carries.transport rfl).bind fun _ _ _ _ => done _

theorem drain (carries : Carries conditions contract) (reason : String) :
    (backend.drain hostname reason).Safe contract (fun _ _ => True) pool := by
  unfold LocalBackend.drain
  split
  · exact carries.fail _ _
  · exact carries.note fun _ filed => filed

theorem undrain (carries : Carries conditions contract) :
    (LocalBackend.undrain hostname).Safe contract (fun _ _ => True) pool := by
  refine carries.note fun pool filed other health same => ?_
  have same : Function.update pool.memory.health hostname none other = some health := same
  by_cases here : other = hostname
  · subst here
    rw [Function.update_self] at same
    cases same
  · rw [Function.update_of_ne here] at same
    exact filed other health same

theorem listResources (carries : Carries conditions contract) :
    (backend.listResources conditions).Safe contract (fun _ _ => True) pool := by
  refine (carries.health false).bind fun all _ kept _ => ?_
  exact (mapM _ kept fun health _ _ _ => carries.liveOn.bind fun _ _ _ _ => done _).bind fun _ _ _ _ => done _

theorem restart (carries : Carries conditions contract) :
    (Program.quietly fun pool : Pool => ((), pool.forget) : Ssh Unit).Safe contract (fun _ _ => True) pool := by
  intro current _ kept _
  obtain ⟨invariant, owed⟩ := carries.notes current current.forget ⟨rfl, rfl, fun _ _ _ same => nomatch same⟩ kept
  exact ⟨invariant, owed, fun _ _ _ => trivial⟩

end Carries

namespace CarriesAll

variable {backend : LocalBackend}

/-- A command that starts a run, with its failure raised. -/
theorem insist (carries : CarriesAll conditions contract) (command : Command) :
    (Lab.insist conditions hostname command).Safe contract (fun _ _ => True) pool := by
  have attempt : ∀ (again : Bool) (pool : Pool), (Lab.attempt conditions ⟨hostname, command, again⟩).Safe contract
      (fun _ _ => True) pool := by
    intro again pool current _ kept permitted
    have moved : contract.invariant (current.tried conditions ⟨hostname, command, again⟩) ∧
        contract.guarantee (some ⟨hostname, command, again⟩) current
          (current.tried conditions ⟨hostname, command, again⟩) := by
      cases starts : command.starts with
      | false => exact carries.tries current _ starts kept (permitted _ rfl)
      | true => exact carries.starts current _ starts kept (permitted _ rfl)
    exact ⟨moved.1, moved.2, fun _ _ _ => trivial⟩
  have transport : (Lab.transport conditions hostname command).Safe contract (fun _ _ => True) pool := by
    refine (attempt false pool).bind fun heard current _ _ => ?_
    cases heard with
    | result | failed => exact Carries.done _
    | broken text =>
        refine (attempt true current).bind fun heard _ _ _ => ?_
        cases heard with
        | result | failed | broken => exact Carries.done _
  refine transport.bind fun answer _ _ _ => ?_
  cases answer with
  | ok result => exact Carries.done _
  | error text => exact carries.fail _ _

theorem launch (carries : CarriesAll conditions contract) (job : Job) :
    (backend.launch conditions job).Safe contract (fun _ _ => True) pool := by
  refine (carries.pickHost job).bind fun health _ _ _ => ?_
  refine (carries.pickDevice health).bind fun device _ _ _ => ?_
  refine (carries.ensureMps health).bind fun _ _ _ _ => ?_
  refine carries.now.bind fun now _ _ _ => ?_
  refine (carries.insist _).bind fun result _ _ _ => ?_
  split
  · exact carries.fail _ _
  · exact Carries.done _

end CarriesAll

/-- A program whose result is of no interest. -/
theorem safe_discard {α : Type} {program : Ssh α} {post : α → Pool → Prop} (safe : program.Safe contract post pool) :
    (discard program : Ssh Unit).Safe contract (fun _ _ => True) pool :=
  safe.bind fun _ _ _ _ => Carries.done _

/-- A call that launches nothing is safe under every contract that carries its accesses. -/
theorem Carries.call {backend : LocalBackend} (carries : Carries conditions contract) {call : Call}
    (aside : call.launches = false) : (call.program backend conditions).Safe contract (fun _ _ => True) pool := by
  cases call with
  | launch job => cases aside
  | validateLaunch job => exact safe_discard ((carries.pickHost job).bind fun _ _ _ _ => done _)
  | freeSlots gpuType => exact safe_discard (carries.freeSlots gpuType)
  | poll handle => exact safe_discard (carries.poll handle)
  | fetchLogs handle after => exact safe_discard (carries.fetchLogs handle after)
  | terminate handle reason => exact carries.terminate handle reason
  | health refresh => exact safe_discard (carries.health refresh)
  | drain hostname reason => exact carries.drain reason
  | undrain hostname => exact carries.undrain
  | listResources => exact safe_discard carries.listResources
  | restart => exact carries.restart

/-- Every call is safe under a contract that also carries the commands that start runs. -/
theorem CarriesAll.call {backend : LocalBackend} (carries : CarriesAll conditions contract) (call : Call) :
    (call.program backend conditions).Safe contract (fun _ _ => True) pool := by
  cases launches : call.launches with
  | false => exact carries.toCarries.call launches
  | true =>
      cases call with
      | launch job => exact safe_discard (carries.launch job)
      | _ => cases launches

end Blocks

end Lab

end GpuBroker.Broker
