/-
This file is how often the command of a job is run on a GCE machine.

Every script that comes to run a command has made the directory of its job, and
of several scripts only one makes it. A script gives the directory back only
while it has not run anything. So those that hold a directory and those that ran
a command there are one at most, whatever scripts are started beside each other,
whichever of their steps fail, and wherever the process that started them stops.
-/
import GpuBroker.Library.Calls
import GpuBroker.Broker.Gce

namespace GpuBroker.Broker

open Library

/-! ### One machine -/

/-- Does a script hold a directory: has it made the directory, and neither run its command nor given the
directory back? -/
def Script.holds (root : String) (script : Script) : Bool :=
  script.root = root &&
    match script.step with
    | .write | .release | .dispatch => true
    | _ => false

theorem Script.holds_other {script : Script} {root : String} (other : script.root ≠ root) :
    script.holds root = false := by
  unfold Script.holds
  rw [decide_eq_false other, Bool.false_and]

namespace Vm

variable {vm : Vm} {script : Script} {number : Nat} {wants : String → String → Prop}

/-- How many scripts hold a directory. -/
def holders (vm : Vm) (root : String) : Nat := vm.scripts.countP (Script.holds root)

/-- How many commands were run in a directory. -/
def ran (vm : Vm) (root : String) : Nat := vm.runs.countP fun run => run.1 = root

/-- The scripts of a machine keep out of each other's way, and what is run is what was asked for. -/
structure Orderly (wants : String → String → Prop) (vm : Vm) : Prop where
  single : ∀ root, vm.holders root + vm.ran root ≤ 1
  claimed : ∀ root ∉ vm.started, vm.holders root + vm.ran root = 0
  written : ∀ script ∈ vm.scripts, script.step = .dispatch →
    vm.commands.lookup script.root = some script.command
  asked : ∀ script ∈ vm.scripts, wants script.root script.command
  runs : ∀ run ∈ vm.runs, wants run.1 run.2

/-- A machine nothing was started on. -/
theorem Orderly.bare (scripts : vm.scripts = []) (runs : vm.runs = []) : vm.Orderly wants := by
  have idle : ∀ root, vm.holders root + vm.ran root = 0 := by
    intro root
    rw [holders, ran, scripts, runs]
    rfl
  refine ⟨fun root => (idle root).le.trans zero_le_one, fun root _ => idle root, ?_, ?_, ?_⟩
  · rw [scripts]
    exact fun _ member => absurd member List.not_mem_nil
  · rw [scripts]
    exact fun _ member => absurd member List.not_mem_nil
  · rw [runs]
    exact fun _ member => absurd member List.not_mem_nil

/-- What GCE says of a machine has no part in it. -/
theorem Orderly.seen (orderly : vm.Orderly wants) (status : VmStatus) (address : Option String)
    (exitCodes : List (String × String)) : { vm with status, address, exitCodes }.Orderly wants :=
  ⟨orderly.single, orderly.claimed, orderly.written, orderly.asked, orderly.runs⟩

theorem Orderly.spawn (orderly : vm.Orderly wants) {root command : String} (wanted : wants root command) :
    (vm.spawn root command).Orderly wants := by
  have idle : ∀ other, (vm.spawn root command).holders other = vm.holders other := by
    intro other
    have silent : Script.holds other ⟨root, command, .prepare⟩ = false := Bool.and_false _
    unfold holders Vm.spawn
    rw [List.countP_append, List.countP_singleton, silent]
    rfl
  refine ⟨fun other => ?_, fun other unmade => ?_, fun script member => ?_, fun script member => ?_,
    orderly.runs⟩
  · rw [idle]
    exact orderly.single other
  · rw [idle]
    exact orderly.claimed other unmade
  · rcases List.mem_append.mp member with old | new
    · exact orderly.written script old
    · rw [List.mem_singleton.mp new]
      exact fun dispatching => by cases dispatching
  · rcases List.mem_append.mp member with old | new
    · exact orderly.asked script old
    · rw [List.mem_singleton.mp new]
      exact wanted

/-! ### One step of a script -/

/-- The holders of a directory when a script has gone on. -/
theorem holders_goto (found : vm.scripts[number]? = some script) (step : ScriptStep) (root : String) :
    (vm.goto number script step).holders root + (if script.holds root then 1 else 0) =
      vm.holders root + if { script with step }.holds root then 1 else 0 := by
  obtain ⟨bound, here⟩ := List.getElem?_eq_some_iff.mp found
  have counted : (if script.holds root then 1 else 0) ≤ vm.holders root := by
    split
    · next mine => exact List.countP_pos_iff.mpr ⟨script, here ▸ List.getElem_mem bound, mine⟩
    · exact Nat.zero_le _
  unfold holders goto at *
  rw [List.countP_set bound, here]
  omega

/-- A script in another directory leaves the holders of this one. -/
theorem holders_goto_other (found : vm.scripts[number]? = some script) (step : ScriptStep) {root : String}
    (other : script.root ≠ root) : (vm.goto number script step).holders root = vm.holders root := by
  have counted := holders_goto found step root
  rw [Script.holds_other other, @Script.holds_other { script with step } root other] at counted
  simpa using counted

/-- The scripts of a machine when one of them has gone on. -/
theorem mem_goto (found : vm.scripts[number]? = some script) {step : ScriptStep} {other : Script}
    (member : other ∈ (vm.goto number script step).scripts) :
    other ∈ vm.scripts ∨ script ∈ vm.scripts ∧ other = { script with step } :=
  (List.mem_or_eq_of_mem_set member).imp_right fun same => ⟨List.mem_of_getElem? found, same⟩

theorem asked_goto (orderly : vm.Orderly wants) (found : vm.scripts[number]? = some script)
    (step : ScriptStep) :
    ∀ other ∈ (vm.goto number script step).scripts, wants other.root other.command := by
  intro other member
  rcases mem_goto found member with old | ⟨mine, rfl⟩
  · exact orderly.asked other old
  · exact orderly.asked script mine

theorem written_goto (orderly : vm.Orderly wants) (found : vm.scripts[number]? = some script)
    {step : ScriptStep} (early : step ≠ .dispatch) :
    ∀ other ∈ (vm.goto number script step).scripts, other.step = .dispatch →
      vm.commands.lookup other.root = some other.command := by
  intro other member dispatching
  rcases mem_goto found member with old | ⟨_, rfl⟩
  · exact orderly.written other old dispatching
  · exact absurd dispatching early

/-- Of the scripts of a machine, only one holds a directory. -/
theorem Orderly.sole (orderly : vm.Orderly wants) {one other : Script} {root : String}
    (hasOne : one ∈ vm.scripts) (hasOther : other ∈ vm.scripts) (mine : one.holds root = true)
    (yours : other.holds root = true) : one = other := by
  have short : (vm.scripts.filter (Script.holds root)).length ≤ 1 := by
    rw [← List.countP_eq_length_filter]
    exact (Nat.le_add_right _ _).trans (orderly.single root)
  have first := List.mem_filter.mpr ⟨hasOne, mine⟩
  have second := List.mem_filter.mpr ⟨hasOther, yours⟩
  cases held : vm.scripts.filter (Script.holds root) with
  | nil =>
      rw [held] at first
      exact absurd first List.not_mem_nil
  | cons sole rest =>
      rw [held] at first second short
      cases List.eq_nil_of_length_eq_zero (Nat.le_zero.mp (Nat.le_of_succ_le_succ short))
      exact (List.mem_singleton.mp first).trans (List.mem_singleton.mp second).symm

/-- A script that goes on without taking or giving up a directory. -/
theorem Orderly.goto (orderly : vm.Orderly wants) (found : vm.scripts[number]? = some script)
    {step : ScriptStep} (early : step ≠ .dispatch)
    (keeps : ∀ root, { script with step }.holds root = script.holds root) :
    (vm.goto number script step).Orderly wants := by
  have same : ∀ root, (vm.goto number script step).holders root = vm.holders root := by
    intro root
    have counted := holders_goto found step root
    rw [keeps] at counted
    exact Nat.add_right_cancel counted
  refine ⟨fun root => ?_, fun root unmade => ?_, written_goto orderly found early,
    asked_goto orderly found step, orderly.runs⟩
  · rw [same]
    exact orderly.single root
  · rw [same]
    exact orderly.claimed root unmade

/-- A script that makes a directory nobody has made. -/
theorem Orderly.claim (orderly : vm.Orderly wants) (found : vm.scripts[number]? = some script)
    (claiming : script.step = .claim) (unmade : script.root ∉ vm.started) :
    { vm.goto number script .write with started := script.root :: vm.started }.Orderly wants := by
  have free := orderly.claimed script.root unmade
  have before : script.holds script.root = false := by
    rw [Script.holds, claiming, Bool.and_false]
  have counted := holders_goto found .write script.root
  rw [before] at counted
  refine ⟨fun root => ?_, fun root absent => ?_, written_goto orderly found (by decide),
    asked_goto orderly found .write, orderly.runs⟩
  · show (vm.goto number script .write).holders root + vm.ran root ≤ 1
    by_cases mine : script.root = root
    · subst mine
      rw [if_neg Bool.false_ne_true] at counted
      split at counted <;> omega
    · rw [holders_goto_other found .write mine]
      exact orderly.single root
  · have others := not_or.mp (mt List.mem_cons.mpr absent)
    show (vm.goto number script .write).holders root + vm.ran root = 0
    rw [holders_goto_other found .write (Ne.symm others.1)]
    exact orderly.claimed root others.2

/-- A script that has its directory writes what it is about to run. -/
theorem Orderly.write (orderly : vm.Orderly wants) (found : vm.scripts[number]? = some script)
    (writing : script.step = .write) :
    { vm.goto number script .dispatch with
      commands := withTag vm.commands (script.root, script.command) }.Orderly wants := by
  have holding : script.holds script.root = true := by
    simp only [Script.holds, writing, decide_true, Bool.and_true]
  have keeps : ∀ root, { script with step := .dispatch }.holds root = script.holds root := by
    intro root
    simp only [Script.holds, writing]
  have same : ∀ root, (vm.goto number script .dispatch).holders root = vm.holders root := by
    intro root
    have counted := holders_goto found .dispatch root
    rw [keeps] at counted
    exact Nat.add_right_cancel counted
  refine ⟨fun root => ?_, fun root unmade => ?_, fun other member dispatching => ?_,
    asked_goto orderly found .dispatch, orderly.runs⟩
  · show (vm.goto number script .dispatch).holders root + vm.ran root ≤ 1
    rw [same]
    exact orderly.single root
  · show (vm.goto number script .dispatch).holders root + vm.ran root = 0
    rw [same]
    exact orderly.claimed root unmade
  · show (withTag vm.commands (script.root, script.command)).lookup other.root = some other.command
    rw [Ec2.lookup_withTag]
    rcases mem_goto found member with old | ⟨_, rfl⟩
    · -- another script about to run something in this directory would hold it as well
      have apart : other.root ≠ script.root := by
        intro shared
        have also : other.holds script.root = true := by
          simp only [Script.holds, dispatching, shared, decide_true, Bool.and_true]
        rw [orderly.sole old (List.mem_of_getElem? found) also holding, writing] at dispatching
        cases dispatching
      rw [if_neg apart]
      exact orderly.written other old dispatching
    · exact if_pos rfl

/-- A script gives the directory back, or fails to: either way it does not hold it any more. -/
theorem Orderly.release (orderly : vm.Orderly wants) (found : vm.scripts[number]? = some script)
    (releasing : script.step = .release) (fails : Bool) :
    { vm.goto number script (.ended 1) with
      started := if fails then vm.started else vm.started.erase script.root }.Orderly wants := by
  have holding : script.holds script.root = true := by
    simp only [Script.holds, releasing, decide_true, Bool.and_true]
  have counted := holders_goto found (.ended 1) script.root
  have after : { script with step := .ended 1 }.holds script.root = false := Bool.and_false _
  rw [holding, after, if_pos rfl, if_neg Bool.false_ne_true] at counted
  have alone := orderly.single script.root
  have freed : (vm.goto number script (.ended 1)).holders script.root + vm.ran script.root = 0 := by omega
  refine ⟨fun root => ?_, fun root absent => ?_, written_goto orderly found (by decide),
    asked_goto orderly found _, orderly.runs⟩
  · show (vm.goto number script (.ended 1)).holders root + vm.ran root ≤ 1
    by_cases mine : script.root = root
    · exact mine ▸ freed.le.trans zero_le_one
    · rw [holders_goto_other found _ mine]
      exact orderly.single root
  · show (vm.goto number script (.ended 1)).holders root + vm.ran root = 0
    by_cases mine : script.root = root
    · exact mine ▸ freed
    · rw [holders_goto_other found _ mine]
      refine orderly.claimed root fun made => absent ?_
      show root ∈ if fails then vm.started else vm.started.erase script.root
      split
      · exact made
      · exact (List.mem_erase_of_ne (Ne.symm mine)).mpr made

/-- A script runs the command it has written, or fails to: either way it does not hold the directory any
more, which stays made. -/
theorem Orderly.dispatch (orderly : vm.Orderly wants) (found : vm.scripts[number]? = some script)
    (dispatching : script.step = .dispatch) (fails : Bool) :
    { vm.goto number script (.ended 0) with
      runs := if fails then vm.runs
        else vm.runs ++ [(script.root, (vm.commands.lookup script.root).getD "")] }.Orderly wants := by
  have mine := List.mem_of_getElem? found
  have holding : script.holds script.root = true := by
    simp only [Script.holds, dispatching, decide_true, Bool.and_true]
  have counted := holders_goto found (.ended 0) script.root
  have after : { script with step := .ended 0 }.holds script.root = false := Bool.and_false _
  rw [holding, after, if_pos rfl, if_neg Bool.false_ne_true] at counted
  rw [orderly.written script mine dispatching, Option.getD_some]
  have alone := orderly.single script.root
  have runs : ∀ root, { vm.goto number script (.ended 0) with
      runs := if fails then vm.runs else vm.runs ++ [(script.root, script.command)] }.ran root ≤
        vm.ran root + if script.root = root then 1 else 0 := by
    intro root
    unfold ran
    split
    · exact Nat.le_add_right _ _
    · rw [List.countP_append, List.countP_singleton]
      simp only [decide_eq_true_eq, le_refl]
  refine ⟨fun root => ?_, fun root unmade => ?_, written_goto orderly found (by decide),
    asked_goto orderly found _, fun run member => ?_⟩
  · refine (Nat.add_le_add_left (runs root) _).trans ?_
    show (vm.goto number script (.ended 0)).holders root + _ ≤ 1
    by_cases own : script.root = root
    · subst own
      rw [if_pos rfl]
      omega
    · rw [holders_goto_other found _ own, if_neg own]
      exact orderly.single root
  · have free := orderly.claimed root unmade
    have other : script.root ≠ root := by
      intro own
      subst own
      omega
    have quiet := runs root
    rw [if_neg other] at quiet
    show (vm.goto number script (.ended 0)).holders root + _ = 0
    rw [holders_goto_other found _ other]
    omega
  · have either : run ∈ vm.runs ∨ run = (script.root, script.command) := by
      change run ∈ (if fails then vm.runs else vm.runs ++ [(script.root, script.command)]) at member
      split at member
      · exact Or.inl member
      · exact (List.mem_append.mp member).imp_right List.mem_singleton.mp
    rcases either with old | rfl
    · exact orderly.runs run old
    · exact orderly.asked script mine

/-- A step of a script keeps a machine orderly, whether it fails or not. -/
theorem Orderly.turn (orderly : vm.Orderly wants) (number : Nat) (fails : Bool) :
    (vm.turn number fails).Orderly wants := by
  unfold Vm.turn
  cases found : vm.scripts[number]? with
  | none => exact orderly
  | some script =>
      have stays : ∀ {step : ScriptStep}, step ≠ .dispatch →
          (∀ root, { script with step }.holds root = false) → (∀ root, script.holds root = false) →
          (vm.goto number script step).Orderly wants := fun early after before =>
        orderly.goto found early fun root => (after root).trans (before root).symm
      dsimp only
      cases step : script.step with
      | prepare =>
          have before : ∀ root, script.holds root = false := fun root => by
            rw [Script.holds, step, Bool.and_false]
          dsimp only
          split
          · exact stays (by decide) (fun _ => Bool.and_false _) before
          · exact stays (by decide) (fun _ => Bool.and_false _) before
      | claim =>
          have before : ∀ root, script.holds root = false := fun root => by
            rw [Script.holds, step, Bool.and_false]
          dsimp only
          split
          · exact stays (by decide) (fun _ => Bool.and_false _) before
          · next made => exact orderly.claim found step fun member => made (Or.inr member)
      | write =>
          dsimp only
          split
          · refine orderly.goto found (by decide) fun root => ?_
            simp only [Script.holds, step]
          · exact orderly.write found step
      | release => exact orderly.release found step fails
      | dispatch => exact orderly.dispatch found step fails
      | check =>
          have before : ∀ root, script.holds root = false := fun root => by
            rw [Script.holds, step, Bool.and_false]
          exact stays (by simp) (fun _ => Bool.and_false _) before
      | ended code => exact orderly

theorem Orderly.turns (orderly : vm.Orderly wants) (steps : List (Nat × Bool)) :
    (vm.turns steps).Orderly wants := by
  induction steps generalizing vm with
  | nil => exact orderly
  | cons step rest inductionHypothesis => exact inductionHypothesis (orderly.turn step.1 step.2)

end Vm

/-! ### A project -/

namespace Gce

variable {wants : String → String → Prop} {project : Gce} {region : Region} {α β : Type}

/-- Every machine of a project is orderly. -/
def Orderly (wants : String → String → Prop) (project : Gce) : Prop :=
  ∀ vm ∈ project.vms, vm.Orderly wants

theorem Orderly.arrived (orderly : project.Orderly wants) : (project.arrived region).Orderly wants := by
  intro vm member
  obtain ⟨before, here, moved⟩ := List.mem_filterMap.mp member
  obtain ⟨⟨status, address, exitCodes⟩, _, rfl⟩ := Option.map_eq_some_iff.mp moved
  exact ((orderly before here).turns _).seen status address exitCodes

theorem Orderly.change (orderly : project.Orderly wants) {name : String} {becomes : Vm → Vm}
    (keeps : ∀ vm : Vm, vm.Orderly wants → (becomes vm).Orderly wants) :
    (project.change name becomes).Orderly wants := by
  intro vm member
  obtain ⟨before, here, rfl⟩ := List.mem_map.mp member
  split
  · exact keeps before (orderly before here)
  · exact orderly before here

theorem Orderly.running (orderly : project.Orderly wants) {address : String} {effect : Vm → Vm}
    (keeps : ∀ vm : Vm, vm.Orderly wants → (effect vm).Orderly wants) :
    (Gce.running region address effect project).Orderly wants := by
  unfold Gce.running
  split
  · exact orderly
  · exact orderly.change fun vm here => (keeps vm here).turns _

/-- What is left is orderly where what was found is. -/
def Tends (wants : String → String → Prop) (before after : Gce) : Prop :=
  before.Orderly wants → after.Orderly wants

theorem Tends.refl (project : Gce) : Tends wants project project := id

theorem Tends.trans {one two three : Gce} (first : Tends wants one two) (second : Tends wants two three) :
    Tends wants one three :=
  second ∘ first

/-- A program every access of which keeps the machines orderly, wherever it starts. -/
abbrev Tidy (wants : String → String → Prop) (program : Requests α) : Prop :=
  ∀ project, program.Safe (Contract.alone (Tends wants) fun _ => True) (fun _ _ => True) project

theorem tidy_pure (value : α) : Tidy wants (pure value : Requests α) := fun _ _ _ _ => trivial

theorem tidy_fail (detail : String) : Tidy wants (.fail detail : Requests α) := fun _ _ _ _ => trivial

theorem tidy_bind {first : Requests α} {rest : α → Requests β} (begins : Tidy wants first)
    (resumes : ∀ value, Tidy wants (rest value)) : Tidy wants (first >>= rest) :=
  fun project => (begins project).bind fun value current _ _ => resumes value current

theorem tidy_quietly {action : Gce → α × Gce} (same : ∀ project, (action project).2.vms = project.vms) :
    Tidy wants (Program.quietly action : Requests α) := by
  intro project current _ _ _
  refine ⟨trivial, fun orderly vm member => orderly vm (same current ▸ member), fun _ _ _ => trivial⟩

theorem tidy_ask {label : GceRequest} {act : Gce → Except String α × Gce}
    (keeps : ∀ project : Gce, project.Orderly wants → (act project).2.Orderly wants) :
    Tidy wants (ask region label act) := by
  intro project current _ _ _
  refine ⟨trivial, fun orderly => ?_, fun _ _ _ => trivial⟩
  have here : (current.arrived region).Orderly wants := orderly.arrived
  dsimp only
  split
  · exact keeps _ here
  · exact here
  · exact keeps _ here

theorem tidy_orFail (value : Except String α) : Tidy wants (orFail value) := by
  cases value with
  | ok value => exact tidy_pure value
  | error detail => exact tidy_fail detail

theorem tidy_run {address action : String} {effect : Vm → Vm} {reply : Reply}
    (keeps : ∀ vm : Vm, vm.Orderly wants → (effect vm).Orderly wants) :
    Tidy wants (run region address action effect reply) := by
  refine tidy_bind (tidy_ask fun project orderly => ?_) fun answer => ?_
  · have after := @Orderly.running wants _ region orderly address effect keeps
    dsimp only
    split
    · exact after
    · split
      · exact after
      · exact after
  · cases answer with
    | error detail => exact tidy_pure _
    | ok ended =>
        dsimp only
        split
        · exact tidy_pure _
        · exact tidy_pure _

end Gce

/-! ### The methods -/

namespace GceBackend

open Gce

variable {backend : GceBackend} {region : Region} {wants : String → String → Prop}

theorem tidy_listResources : Tidy wants (listResources region) := by
  refine tidy_bind (tidy_ask fun _ orderly => orderly) fun answer => ?_
  cases answer with
  | ok found => exact tidy_pure _
  | error detail => exact tidy_fail _

theorem tidy_freeSlots (gpuType : String) : Tidy wants (backend.freeSlots region gpuType) := by
  unfold freeSlots
  split
  · exact tidy_pure _
  · exact tidy_bind tidy_listResources fun found => tidy_pure _

theorem tidy_launch (job : Job) : Tidy wants (backend.launch region job) := by
  refine tidy_bind (tidy_orFail _) fun _ => tidy_bind (tidy_freeSlots _) fun free => ?_
  split
  · exact tidy_fail _
  · refine tidy_bind (tidy_orFail _) fun name => tidy_bind (tidy_quietly fun _ => rfl) fun moment => ?_
    refine tidy_bind (tidy_ask fun project orderly => ?_) fun answer => ?_
    · unfold inserting
      split
      · exact orderly
      · intro vm member
        rcases List.mem_append.mp member with old | new
        · exact orderly vm old
        · rw [List.mem_singleton.mp new]
          exact .bare rfl rfl
    · cases answer with
      | error detail => exact tidy_fail _
      | ok _ => exact tidy_pure _

theorem tidy_get (handle : String) : Tidy wants (get region handle) := by
  refine tidy_bind (tidy_ask fun _ orderly => orderly) fun answer => ?_
  cases answer with
  | ok vm => exact tidy_pure vm
  | error detail =>
      dsimp only
      split
      · exact tidy_pure _
      · exact tidy_fail _

theorem tidy_hostOf (vm : Vm) : Tidy wants (hostOf vm) := by
  unfold hostOf
  split
  · exact tidy_pure _
  · exact tidy_fail _

theorem tidy_start (handle : String) {job : Job} (wanted : wants (rootOf job.jobId) job.command) :
    Tidy wants (start region handle job) := by
  refine tidy_bind (tidy_get handle) fun vm => tidy_bind (tidy_hostOf vm) fun host => ?_
  split
  · exact tidy_fail _
  · refine tidy_bind (tidy_bind (tidy_run fun vm orderly => orderly.spawn wanted) tidy_orFail) fun _ => ?_
    exact tidy_pure _

theorem tidy_poll (handle : String) : Tidy wants (poll region handle) := by
  refine tidy_bind (tidy_get handle) fun vm => ?_
  split
  · exact tidy_pure _
  · split
    · exact tidy_pure _
    · refine tidy_bind (tidy_hostOf vm) fun host => ?_
      extract_lets id
      split
      · exact tidy_fail _
      · refine tidy_bind (tidy_run fun _ orderly => orderly) fun answer => ?_
        cases answer with
        | error detail => exact tidy_pure _
        | ok printed =>
            dsimp only
            split
            · exact tidy_pure _
            · split
              · exact tidy_pure _
              · split
                · exact tidy_fail _
                · exact tidy_pure _

theorem tidy_fetchLogs (handle : String) (after : Nat) : Tidy wants (fetchLogs region handle after) := by
  refine tidy_bind (tidy_quietly fun _ => rfl) fun cached => ?_
  cases cached with
  | some cached => exact tidy_pure _
  | none =>
      refine tidy_bind (tidy_bind (tidy_get handle) tidy_hostOf) fun host => ?_
      refine tidy_bind (tidy_bind (tidy_get handle) fun vm => tidy_pure _) fun id => ?_
      split
      · exact tidy_fail _
      · exact tidy_bind (tidy_bind (tidy_run fun _ orderly => orderly) tidy_orFail) fun _ => tidy_pure _

theorem tidy_sampleUtilization (handle : String) :
    Tidy wants (backend.sampleUtilization region handle) := by
  refine tidy_bind (tidy_bind (tidy_get handle) tidy_hostOf) fun host => ?_
  refine tidy_bind (tidy_bind (tidy_run fun _ orderly => orderly) tidy_orFail) fun lines => ?_
  split
  · exact tidy_pure _
  · exact tidy_fail _

theorem tidy_terminate (handle reason : String) : Tidy wants (terminate region handle reason) := by
  have deletes : Tidy wants (ask region (.delete handle) (deleting handle)) := by
    refine tidy_ask fun project orderly => ?_
    unfold deleting
    split
    · exact orderly.change fun vm here => here.seen _ vm.address vm.exitCodes
    · exact orderly
  refine tidy_bind (fun project => (tidy_fetchLogs handle 0 project).attempt) fun read => ?_
  extract_lets deleted
  have ends : Tidy wants (deleted ()) := by
    refine tidy_bind deletes fun answer => ?_
    cases answer with
    | ok _ => exact tidy_pure _
    | error detail =>
        dsimp only
        split
        · exact tidy_pure _
        · exact tidy_fail _
  cases read with
  | ok lines => exact tidy_bind (tidy_quietly fun _ => rfl) fun _ => ends
  | error detail => exact tidy_bind (tidy_quietly fun _ => rfl) fun _ => ends

end GceBackend

/-! ### A run -/

/-- A call of the backend. -/
inductive GceCall where
  | listResources
  | freeSlots (gpuType : String)
  | launch (job : Job)
  | start (handle : String) (job : Job)
  | poll (handle : String)
  | fetchLogs (handle : String) (after : Nat)
  | sampleUtilization (handle : String)
  | terminate (handle reason : String)

open Gce in
/-- The program of a call. -/
def GceCall.program (backend : GceBackend) (region : Region) : GceCall → Requests Unit
  | listResources => discard (GceBackend.listResources region)
  | freeSlots gpuType => discard (backend.freeSlots region gpuType)
  | launch job => discard (backend.launch region job)
  | start handle job => GceBackend.start region handle job
  | poll handle => discard (GceBackend.poll region handle)
  | fetchLogs handle after => discard (GceBackend.fetchLogs region handle after)
  | sampleUtilization handle => discard (backend.sampleUtilization region handle)
  | terminate handle reason => GceBackend.terminate region handle reason

/-- A call of a run: how many of its requests were made, and whether the process ended with it. -/
structure GceStint where
  call : GceCall
  length : Nat
  ends : Bool

/-- What a run leaves. -/
def GceBackend.after (backend : GceBackend) (region : Region) : List GceStint → Gce → Gce
  | [], project => project
  | stint :: rest, project =>
      let left := ((stint.call.program backend region).run stint.length project).2
      after backend region rest (if stint.ends then left.forget else left)

/-- A command that one of the calls was to start, in the directory of its job. -/
def GceStint.asks (stints : List GceStint) (root command : String) : Prop :=
  ∃ stint ∈ stints, ∃ handle job, stint.call = .start handle job ∧ root = rootOf job.jobId ∧
    command = job.command

theorem GceCall.tidy {wants : String → String → Prop} {backend : GceBackend} {region : Region}
    (call : GceCall)
    (wanted : ∀ handle job, call = .start handle job → wants (rootOf job.jobId) job.command) :
    Gce.Tidy wants (call.program backend region) := by
  have discarded : ∀ {α : Type} {program : Gce.Requests α}, Gce.Tidy wants program →
      Gce.Tidy wants (discard program) := fun tidy => Gce.tidy_bind tidy fun _ => Gce.tidy_pure _
  cases call with
  | listResources => exact discarded GceBackend.tidy_listResources
  | freeSlots gpuType => exact discarded (GceBackend.tidy_freeSlots gpuType)
  | launch job => exact discarded (GceBackend.tidy_launch job)
  | start handle job => exact GceBackend.tidy_start handle (wanted handle job rfl)
  | poll handle => exact discarded (GceBackend.tidy_poll handle)
  | fetchLogs handle after => exact discarded (GceBackend.tidy_fetchLogs handle after)
  | sampleUtilization handle => exact discarded (GceBackend.tidy_sampleUtilization handle)
  | terminate handle reason => exact GceBackend.tidy_terminate handle reason

theorem GceBackend.orderly_after {wants : String → String → Prop} {backend : GceBackend} {region : Region}
    {stints : List GceStint} {project : Gce}
    (wanted : ∀ stint ∈ stints, ∀ handle job, stint.call = .start handle job →
      wants (rootOf job.jobId) job.command)
    (orderly : project.Orderly wants) : (backend.after region stints project).Orderly wants := by
  induction stints generalizing project with
  | nil => exact orderly
  | cons stint rest inductionHypothesis =>
      refine inductionHypothesis (fun other member => wanted other (List.mem_cons_of_mem _ member)) ?_
      have tidy := @GceCall.tidy wants backend region stint.call (wanted stint List.mem_cons_self)
      have left : ((stint.call.program backend region).run stint.length project).2.Orderly wants := by
        obtain ⟨_, path⟩ := (tidy project).run trivial (Program.allowed_always (fun _ _ => trivial) _ _ _)
        exact Contract.path_alone Gce.Tends.refl Gce.Tends.trans path orderly
      split
      · exact left
      · exact left

/-- Whatever calls are made of the backend, each stopped after any of its requests and by whatever
process, while requests fail or lose their answers and the scripts on the machines take turns and fail:
no machine runs the command of a job twice, and what a machine runs for a job is its command. -/
theorem GceBackend.commands_run_once (backend : GceBackend) (region : Region) (stints : List GceStint) :
    ∀ vm ∈ (backend.after region stints .new).vms, (vm.runs.map Prod.fst).Nodup ∧
      ∀ run ∈ vm.runs, GceStint.asks stints run.1 run.2 := by
  intro vm member
  have orderly : (backend.after region stints .new).Orderly (GceStint.asks stints) :=
    GceBackend.orderly_after
      (fun stint here handle job starts => ⟨stint, here, handle, job, starts, rfl, rfl⟩)
      fun _ none => absurd none List.not_mem_nil
  have orderly := orderly vm member
  refine ⟨List.nodup_iff_count_le_one.mpr fun root => ?_, orderly.runs⟩
  refine le_trans ?_ (orderly.single root)
  rw [List.count, List.countP_map]
  refine Nat.le_add_left_of_le (List.countP_mono_left fun run _ same => ?_)
  simpa using same

/-! ### A machine with a job -/

/-- A backend for one machine. -/
def GceBackend.single : GceBackend where
  config :=
    { project := "club", bootImage := "debian", sshPrivateKey := "key", knownHosts := "hosts"
      machineTypes := [("t4", "n1-standard-4")], acceleratorTypes := [("t4", "nvidia-tesla-t4")]
      acceleratorCounts := [], maxInstances := [("t4", 1)] }
  labelStamp := fun _ => "stamp"
  parseSample := fun _ => none

/-- Machines come up at once, and the first two scripts on a machine go on while one of them is waited for. -/
def Region.brisk : Region where
  clock := fun _ => 0
  fate := fun _ => .answered
  moves := fun _ vm => some (.running, some "10.0.0.2", vm.exitCodes)
  turns := fun _ _ => []
  meanwhile := fun _ _ => (List.replicate 5 (0, false)) ++ List.replicate 5 (1, false)
  complaint := fun _ => ""
  output := fun _ _ _ => []
  readings := fun _ _ => []

/-- A job for the machine. -/
def Job.forVm : Job :=
  NewJob.row ⟨"job", "ann", "train", "t4", 4, .gpuHour, 1, none, "real"⟩ .queued 0

/-- The job is launched, and its command is started by two processes. -/
def GceStint.startedTwice : List GceStint :=
  [⟨.launch .forVm, 10, false⟩, ⟨.start "gpu-broker-job" .forVm, 10, true⟩,
    ⟨.start "gpu-broker-job" .forVm, 10, false⟩]

/-- Of two starts of a job, one runs its command. -/
theorem GceBackend.command_ran :
    ∃ vm ∈ (GceBackend.single.after .brisk GceStint.startedTwice .new).vms,
      vm.runs = [(rootOf "job", "train")] ∧ (vm.runs.map Prod.fst).Nodup ∧
        ∀ run ∈ vm.runs, GceStint.asks GceStint.startedTwice run.1 run.2 := by
  have there : (GceBackend.single.after .brisk GceStint.startedTwice .new).vms ≠ [] := by decide +kernel
  have ran : ∀ vm ∈ (GceBackend.single.after .brisk GceStint.startedTwice .new).vms,
      vm.runs = [(rootOf "job", "train")] := by decide +kernel
  have here := List.head_mem there
  exact ⟨_, here, ran _ here, GceBackend.commands_run_once .single .brisk _ _ here⟩

end GpuBroker.Broker
