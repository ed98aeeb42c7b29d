/-
This file is what the methods of the EC2 backend do beside launches and starts,
access by access: they read the clock, make requests that launch nothing, shut a
machine down, and note what they were answered.

A relation that holds across each of these accesses, and composes, holds across
every such method, wherever it is stopped.
-/
import GpuBroker.Library.Calls
import GpuBroker.Broker.Ec2

namespace GpuBroker.Broker

open Library

namespace Ec2Backend

open Ec2

/-- What a poll says of a machine that is going or gone: how its command ended, if that is known. -/
def parted (weather : Weather) (handle : String) (machine : Instance) : Aws Observation :=
  match truthy machine.commandId with
  | some command => do
      let observation ← invocation weather handle command
      if observation.status = .completed ∨ observation.status = .failed then pure observation
      else pure (gone machine)
  | none => pure (gone machine)

/-- The end of a termination, once no command runs: the machine is shut down. -/
def shutDown (backend : Ec2Backend) (weather : Weather) (handle : String) : Aws Unit := do
  match ← ask weather (.terminateInstances handle) (shutting handle)
    (fun account =>
      if account.instances.any fun machine => machine.instanceId = handle then .ok ()
      else .error "InvalidInstanceID.NotFound") with
  | .ok () => backend.invalidate
  | .error code => do
      backend.invalidate
      if unknownInstance code then pure () else .fail s!"could not terminate {handle}: {code}"

end Ec2Backend

namespace Ec2

theorem memory_remember (name : String) (change : Memory → Memory) (account : Ec2) :
    (account.remember name change).memory name = change (account.memory name) :=
  Function.update_self ..

theorem idOf_injective : Function.Injective Ec2Backend.idOf := by
  intro one other same
  have lists := congrArg String.toList same
  simp only [Ec2Backend.idOf, String.toList_append, Nat.repr_eq_ofList_toDigits,
    String.toList_ofList] at lists
  have digits := congrArg (Nat.ofDigitChars 10 · 0) (List.append_cancel_left lists)
  simpa using digits

/-- A relation between accounts that composes and holds across what machines do by themselves, what a process
notes, and the end of a machine. -/
structure Settled (weather : Weather) (owes : Ec2 → Ec2 → Prop) : Prop where
  refl : ∀ account, owes account account
  trans : ∀ {one two three}, owes one two → owes two three → owes one three
  arrives : ∀ account, owes account (account.arrived weather)
  reads : ∀ account : Ec2, owes account { account with readings := account.readings + 1 }
  notes : ∀ name (change : Memory → Memory) account,
    (∀ memory, ∀ cache ∈ (change memory).cache, cache ∈ memory.cache) → owes account (account.remember name change)
  lists : ∀ (backend : Ec2Backend) now account,
    owes account (backend.caching now (.ok (Ec2Backend.tagged account)) account)
  shuts : ∀ handle account, owes account (Ec2Backend.shutting handle account)

/-- A program every access of which is as a relation says, wherever it starts. -/
abbrev Steady {α : Type} (owes : Ec2 → Ec2 → Prop) (program : Aws α) : Prop :=
  ∀ account, program.Safe (Contract.lone fun _ => owes) (fun _ _ => True) account

variable {α β : Type} {weather : Weather} {owes : Ec2 → Ec2 → Prop} {rest : α → Aws β}

theorem steady_pure (value : α) : Steady owes (pure value) := fun _ _ _ _ => trivial

theorem steady_fail (error : String) : Steady owes (.fail error : Aws α) := fun _ _ _ _ => trivial

theorem steady_bind {first : Aws α} (begins : Steady owes first) (resumes : ∀ value, Steady owes (rest value)) :
    Steady owes (first >>= rest) :=
  fun account => (begins account).bind fun value current _ _ => resumes value current

theorem steady_discard {program : Aws α} (steady : Steady owes program) : Steady owes (discard program) :=
  steady_bind steady fun _ => steady_pure _

/-- What a request comes to. -/
inductive Answered (weather : Weather) (effect : Ec2 → Ec2) (reply : Ec2 → Except String α)
    (note : Except String α → Ec2 → Ec2) (account : Ec2) : Except String α → Ec2 → Prop where
  | answered : Answered weather effect reply note account (reply (account.arrived weather))
      (note (reply (account.arrived weather)) (effect (account.arrived weather)))
  | refused (code : String) (refused : weather.fate account.requests = .refused code) :
      Answered weather effect reply note account (.error code) (account.arrived weather)
  | unanswered : Answered weather effect reply note account (.error "RequestTimeout")
      (effect (account.arrived weather))

namespace Settled

/-! ### One access -/

theorem recalling (settled : Settled weather owes) (name : String) (view : Memory → α) (account : Ec2) :
    (Ec2.recollect name view).Safe (Contract.lone fun _ => owes)
      (fun value last => value = view (account.memory name) ∧ last = account) account := by
  rintro current rfl _ _
  exact ⟨trivial, settled.refl current, fun _ same _ => ⟨rfl, same⟩⟩

theorem reading (settled : Settled weather owes) (account : Ec2) :
    (Ec2.now weather).Safe (Contract.lone fun _ => owes)
      (fun moment last => moment = weather.clock account.readings ∧
        last = { account with readings := account.readings + 1 }) account := by
  rintro current rfl _ _
  exact ⟨trivial, settled.reads current, fun _ same _ => ⟨rfl, same⟩⟩

theorem noting (settled : Settled weather owes) {name : String} {change : Memory → Memory}
    (kept : ∀ memory, ∀ cache ∈ (change memory).cache, cache ∈ memory.cache) (account : Ec2) :
    (Ec2.note name change).Safe (Contract.lone fun _ => owes)
      (fun _ last => last = account.remember name change) account := by
  rintro current rfl _ _
  exact ⟨trivial, settled.notes name change current kept, fun _ same _ => same⟩

theorem requesting (settled : Settled weather owes) {label : Request} {effect : Ec2 → Ec2}
    {reply : Ec2 → Except String α} {note : Except String α → Ec2 → Ec2} {account : Ec2}
    (changes : owes (account.arrived weather) (effect (account.arrived weather)))
    (notes : owes (effect (account.arrived weather))
      (note (reply (account.arrived weather)) (effect (account.arrived weather)))) :
    (Ec2.request weather label effect reply note).Safe (Contract.lone fun _ => owes)
      (Answered weather effect reply note account) account := by
  rintro current rfl _ _
  have arrived := settled.arrives current
  have changed := settled.trans arrived changes
  simp only
  split
  · exact ⟨trivial, settled.trans changed notes, fun _ same _ => same ▸ .answered⟩
  · next code refused => exact ⟨trivial, arrived, fun _ same _ => same ▸ .refused code refused⟩
  · exact ⟨trivial, changed, fun _ same _ => same ▸ .unanswered⟩

theorem recollect (settled : Settled weather owes) {name : String} {view : Memory → α} :
    Steady owes (Ec2.recollect name view) :=
  fun account => (settled.recalling name view account).weaken fun _ _ _ _ => trivial

theorem now (settled : Settled weather owes) : Steady owes (Ec2.now weather) :=
  fun account => (settled.reading account).weaken fun _ _ _ _ => trivial

theorem note (settled : Settled weather owes) {name : String} {change : Memory → Memory}
    (kept : ∀ memory, ∀ cache ∈ (change memory).cache, cache ∈ memory.cache) :
    Steady owes (Ec2.note name change) :=
  fun account => (settled.noting kept account).weaken fun _ _ _ _ => trivial

theorem request (settled : Settled weather owes) {label : Request} {effect : Ec2 → Ec2}
    {reply : Ec2 → Except String α} {note : Except String α → Ec2 → Ec2}
    (changes : ∀ account, owes account (effect account))
    (notes : ∀ account, owes (effect account) (note (reply account) (effect account))) :
    Steady owes (Ec2.request weather label effect reply note) :=
  fun _ => (settled.requesting (changes _) (notes _)).weaken fun _ _ _ _ => trivial

theorem ask (settled : Settled weather owes) {label : Request} {effect : Ec2 → Ec2}
    {reply : Ec2 → Except String α} (changes : ∀ account, owes account (effect account)) :
    Steady owes (Ec2.ask weather label effect reply) :=
  settled.request changes fun account => settled.refl (effect account)

/-- A request that changes nothing. -/
theorem look (settled : Settled weather owes) {label : Request} {reply : Ec2 → Except String α} :
    Steady owes (Ec2.ask weather label id reply) :=
  settled.ask settled.refl

section Methods

open Ec2Backend

variable {backend : Ec2Backend}

/-! ### Looking machines up -/

theorem instances (settled : Settled weather owes) : Steady owes (backend.instances weather) := by
  refine steady_bind settled.now fun now => steady_bind settled.recollect fun remembered => ?_
  split
  · exact steady_pure _
  · refine steady_bind (settled.request settled.refl fun account => settled.lists backend now account) fun answer => ?_
    cases answer with
    | error code => exact steady_fail _
    | ok found => exact steady_pure _

theorem describeOne (settled : Settled weather owes) (handle : String) :
    Steady owes (describeOne weather handle) := by
  refine steady_bind settled.look fun answer => ?_
  cases answer with
  | ok found => exact steady_pure _
  | error code =>
      simp only
      split
      · exact steady_pure _
      · exact steady_fail _

theorem instanceOf (settled : Settled weather owes) (handle : String) :
    Steady owes (backend.instanceOf weather handle) := by
  refine steady_bind settled.instances fun found => ?_
  split
  · exact steady_pure _
  · exact settled.describeOne handle

theorem commandId (settled : Settled weather owes) (handle : String) :
    Steady owes (backend.commandId weather handle) :=
  steady_bind (settled.instanceOf handle) fun _ => steady_pure _

theorem invalidate (settled : Settled weather owes) : Steady owes backend.invalidate :=
  settled.note fun _ => nofun

/-! ### Capacity -/

theorem countedSlots (settled : Settled weather owes) (gpuType : String) :
    Steady owes (backend.countedSlots weather gpuType) := by
  unfold Ec2Backend.countedSlots
  split
  · exact steady_fail _
  · exact steady_bind settled.instances fun _ => steady_pure _

theorem freeSlots (settled : Settled weather owes) (gpuType : String) :
    Steady owes (backend.freeSlots weather gpuType) := by
  unfold Ec2Backend.freeSlots
  split
  · exact steady_pure _
  · refine steady_bind settled.recollect fun cooling => ?_
    split
    · exact settled.countedSlots gpuType
    · refine steady_bind settled.now fun moment => ?_
      split
      · exact steady_pure _
      · exact steady_bind (settled.note fun _ _ kept => kept) fun _ => settled.countedSlots gpuType

theorem noteFailure (settled : Settled weather owes) : Steady owes (backend.noteFailure weather) := by
  unfold Ec2Backend.noteFailure
  split
  · exact steady_pure _
  · refine steady_bind (settled.note fun _ _ kept => kept) fun _ => steady_bind settled.recollect fun failures => ?_
    split
    · exact steady_bind settled.now fun moment => settled.note fun _ _ kept => kept
    · exact steady_pure _

/-! ### Polls and output -/

theorem invocation (settled : Settled weather owes) (handle command : String) :
    Steady owes (invocation weather handle command) := by
  refine steady_bind settled.look fun answer => ?_
  cases answer with
  | ok result => exact steady_pure _
  | error code =>
      simp only
      split
      · exact steady_pure _
      · exact steady_fail _

theorem awaitAgent (settled : Settled weather owes) (machine : Instance) :
    Steady owes (backend.awaitAgent weather machine) := by
  refine steady_bind (steady_bind settled.look fun answer => ?_) fun online => ?_
  · cases answer with
    | ok online | error code => exact steady_pure _
  · simp only
    split
    · exact steady_pure _
    · split
      · exact steady_pure _
      · refine steady_bind settled.now fun moment => ?_
        split
        · exact steady_pure _
        · exact steady_pure _

theorem poll (settled : Settled weather owes) (handle : String) : Steady owes (backend.poll weather handle) := by
  refine steady_bind (settled.instanceOf handle) fun found => ?_
  have leaving : ∀ machine, Steady owes (Ec2Backend.parted weather handle machine) := by
    intro machine
    unfold Ec2Backend.parted
    split
    · refine steady_bind (settled.invocation handle _) fun observation => ?_
      split
      · exact steady_pure _
      · exact steady_pure _
    · exact steady_pure _
  cases found with
  | none => exact steady_pure _
  | some machine =>
      simp only
      split
      · exact leaving machine
      · exact leaving machine
      · exact steady_pure _
      · exact steady_pure _
      · exact steady_pure _
      · split
        · exact settled.invocation handle _
        · exact settled.awaitAgent machine

theorem readStream (settled : Settled weather owes) (command handle stream : String) :
    Steady owes (backend.readStream weather command handle stream) := by
  have leaves : ∀ (account : Ec2) (name : String) (answer : Except String (List String × Option String)),
      owes account (backend.leaving name answer account) := by
    intro account name answer
    unfold leaving
    split
    · exact settled.notes _ _ account fun _ _ kept => kept
    · exact settled.refl account
  refine steady_bind settled.recollect fun token => ?_
  refine steady_bind (settled.request settled.refl fun account => leaves account _ _) fun answer => ?_
  cases answer with
  | ok read => exact steady_pure _
  | error code =>
      simp only
      split
      · exact steady_pure _
      · exact steady_fail _

theorem keepLines (settled : Settled weather owes) (handle : String) (more : List Line) :
    Steady owes (backend.keepLines handle more) :=
  settled.note fun _ _ kept => kept

theorem fetchLogs (settled : Settled weather owes) (handle : String) (after : Nat) :
    Steady owes (backend.fetchLogs weather handle after) := by
  refine steady_bind (settled.commandId handle) fun command => ?_
  cases command with
  | none => exact steady_pure _
  | some command =>
      refine steady_bind (settled.readStream command handle "stdout") fun printed => ?_
      refine steady_bind (settled.keepLines handle printed) fun _ => ?_
      refine steady_bind (settled.readStream command handle "stderr") fun complained => ?_
      refine steady_bind (settled.keepLines handle complained) fun _ => ?_
      exact steady_bind settled.recollect fun lines => steady_pure _

theorem sampleUtilization (settled : Settled weather owes) (handle : String) :
    Steady owes (backend.sampleUtilization weather handle) := by
  refine steady_bind (settled.instanceOf handle) fun found => ?_
  cases found with
  | none => exact steady_pure _
  | some machine =>
      simp only
      split
      · exact steady_pure _
      · exact steady_bind (settled.readStream _ handle "stdout") fun lines => steady_pure _

/-! ### Terminating and listing -/

theorem terminate (settled : Settled weather owes) (handle reason : String) :
    Steady owes (backend.terminate weather handle reason) := by
  have stopping : Steady owes (backend.shutDown weather handle) := by
    refine steady_bind (settled.ask (settled.shuts handle)) fun answer => ?_
    cases answer with
    | ok _ => exact settled.invalidate
    | error code =>
        refine steady_bind settled.invalidate fun _ => ?_
        split
        · exact steady_pure _
        · exact steady_fail _
  refine steady_bind (settled.commandId handle) fun command => ?_
  cases command with
  | none => exact stopping
  | some command => exact steady_bind settled.look fun _ => stopping

theorem listResources (settled : Settled weather owes) : Steady owes (backend.listResources weather) :=
  steady_bind settled.instances fun _ => steady_pure _

end Methods

end Settled

end Ec2

end GpuBroker.Broker
