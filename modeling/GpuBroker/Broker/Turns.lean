/-
This file is the walk of the queue turn by turn: each turn decides a job by what
the pass has come to, and acts on the decision before the next.

A decision changes no record. Acting on it changes the record of its job only,
and a backend that raises there is caught. So where the walk is stopped by a
backend, the records of the jobs it has decided are as they were left, and the
others are untouched.
-/
import GpuBroker.Broker.Plans
import GpuBroker.Broker.Providers

namespace GpuBroker.Broker

open Library

variable {γ α : Type}

/-! ### Turns -/

/-- What is decided about a job, and the pass it leaves. -/
def ruling (policy : Policy γ α) (pass : Pass) (job : Job) :
    Op γ (Pass × Action × Option (Placement γ)) :=
  if pass.blocked.length = Currency.all.length then pure (pass, .blockedPool, none)
  else if (policy.suspended.lookup job.userId).isSome then pure (pass, .blockedUnauthorized, none)
  else if job.currency ∈ pass.blocked then pure (pass, .blockedPool, none)
  else do
    let count ← heldBy pass job.userId
    let pass := pass.hold job.userId count
    if policy.limit ≤ count then pure (pass, .blockedTenant, none)
    else if pass.remaining job.currency < money job.reserved then
      pure (pass.block job.currency, .blockedPool, none)
    else do
      match ← choose policy.site job with
      | none => pure (pass, .blockedCapacity, none)
      | some placement =>
          pure ((pass.hold job.userId (count + 1)).commit job, .dispatch, some placement)

/-- One turn of the walk: decide a job, and act on the decision. -/
def decideOne (policy : Policy γ α) (walk : Pass × α) (job : Job) : Op γ (Pass × α) := do
  let ruled ← ruling policy walk.1 job
  let report ← policy.consume walk.2 job ruled.2.1 ruled.2.2
  pure (ruled.1, report)

variable {policy : Policy γ α}

/-- A backend that has no room where it raises. -/
def Backend.guarded (backend : Backend γ) : Backend γ :=
  { backend with
    freeSlots := fun gpuType cloud =>
      match backend.freeSlots gpuType cloud with
      | (.ok free, later) => (.ok free, later)
      | (.error _, later) => (.ok 0, later) }

/-- A site whose backends are passed over where they raise when they are asked for room. -/
def Site.guarded (site : Site γ) : Site γ := { site with backends := site.backends.map Backend.guarded }

def Placement.guarded (placement : Placement γ) : Placement γ :=
  { placement with backend := placement.backend.guarded }

section Reaching

variable {regime : Regime γ} {site : Site γ} {job : Job} {report : TickReport}

end Reaching

/-! ### Turns that a backend stops -/

/-- A transaction about a job leaves the records of the others alone. -/
theorem find_leaves_about {write : Write} {id other : JobId} (about : write.about id)
    (differs : other ≠ id) (world : World γ) :
    (write.leaves world).db.jobs.find other = world.db.jobs.find other := by
  have apart : ∀ (set : Job → Job) (same : ∀ row, (set row).jobId = row.jobId),
      (world.db.jobs.modify id set same).find other = world.db.jobs.find other := fun set same => by
    rw [Table.find_modify, if_neg differs]
  cases applied : write.apply world with
  | error error => rw [Write.leaves_error applied]
  | ok next =>
      rw [Write.leaves_ok applied]
      obtain ⟨db, written, rfl⟩ := Write.apply_eq applied
      show db.jobs.find other = _
      cases write with
      | move current target change now outstanding =>
          obtain rfl : current.jobId = id := about
          obtain ⟨row, _, _, rfl⟩ := Db.moveJob_eq written
          exact apart _ (Job.writtenOver_id _)
      | settle job amount accrued now =>
          obtain rfl : job.jobId = id := about
          cases written
          exact apart _ (Job.stamped_id now)
      | touch job columns now =>
          obtain rfl : job = id := about
          rw [Db.touchJob_eq written]
          exact apart _ (columns.onRow_id now)
      | sampled | notify => rw [(Write.aside written trivial).1]
      | insertUser | updateUser | suspend | restore | create | refuse | abandon | applyPrices =>
          exact about.elim

/-- The habit of programs that change the records of no jobs but some. -/
def keeping (γ : Type) (among : JobId → Prop) : Habit γ where
  owes := fun _ before after => ∀ id, ¬ among id → after.db.jobs.find id = before.db.jobs.find id
  calls := fun _ _ => True
  makes := fun write => ∃ id, among id ∧ write.about id
  rests := fun _ _ _ => rfl
  reads := fun _ _ _ => rfl
  serves := fun _ _ _ _ _ => rfl
  writes := by
    rintro write world ⟨id, member, about⟩ other outside
    refine find_leaves_about about ?_ world
    rintro rfl
    exact outside member

variable {site : Site γ} {limit : Nat} {suspended : List (UserId × String)} {walk : Pass × TickReport}
  {job : Job} {jobs : List Job}

end GpuBroker.Broker
