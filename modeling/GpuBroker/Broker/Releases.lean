/-
This file is the release of a finishing job's hold: what the last move of a job
leaves held, when its caller writes rows of its own in the same transaction.

The release counts the caller's SETTLE rows as given back, while the query that
reads the hold counts them as spent only. So what stays held is what the caller
settles, and what rounding does to the rest.
-/
import GpuBroker.Broker.Runs

namespace GpuBroker.Broker

open Library

variable {γ : Type}

/-! ### What the caller writes -/

/-- What the writes of a kind come to. -/
def asked (kind : LedgerKind) (writes : List LedgerWrite) : Decimal :=
  ((writes.filter fun write => write.kind = kind).map LedgerWrite.amount).sum

/-- What the rows of a kind come to, each rounded as it is inserted. -/
def inserted (kind : LedgerKind) (writes : List LedgerWrite) : Cents :=
  ((writes.filter fun write => write.kind = kind).map fun write => quantize write.amount).sum

/-- What is outstanding of a hold once the writes count. -/
def remaining (holding : Cents) (writes : List LedgerWrite) : Decimal :=
  money holding + asked .reserve writes - asked .release writes - asked .settle writes

/-- What the writes leave held: what they settle, and what rounding makes of the rest. -/
def leftHeld (writes : List LedgerWrite) : Decimal :=
  asked .settle writes + (money (inserted .reserve writes) - asked .reserve writes) -
    (money (inserted .release writes) - asked .release writes)

/-- The writes are of holds taken, given back and settled, in one currency. -/
def Held (currency : Currency) (writes : List LedgerWrite) : Prop :=
  ∀ write ∈ writes, write.currency = currency ∧ write.kind ≠ .abandoned

instance (currency : Currency) (writes : List LedgerWrite) : Decidable (Held currency writes) :=
  inferInstanceAs (Decidable (∀ write ∈ writes, _ ∧ _))

theorem Held.tail {currency : Currency} {write : LedgerWrite} {writes : List LedgerWrite}
    (held : Held currency (write :: writes)) : Held currency writes :=
  fun each member => held each (List.mem_cons_of_mem _ member)

theorem asked_cons (kind : LedgerKind) (write : LedgerWrite) (writes : List LedgerWrite) :
    asked kind (write :: writes) = (if write.kind = kind then write.amount else 0) + asked kind writes := by
  by_cases same : write.kind = kind <;> simp [asked, same]

theorem inserted_cons (kind : LedgerKind) (write : LedgerWrite) (writes : List LedgerWrite) :
    inserted kind (write :: writes) =
      (if write.kind = kind then quantize write.amount else 0) + inserted kind writes := by
  by_cases same : write.kind = kind <;> simp [inserted, same]

/-- The release counts every kind the caller may write. -/
theorem afterWrites_eq {currency : Currency} {writes : List LedgerWrite} (held : Held currency writes)
    (outstanding : Decimal) :
    afterWrites currency outstanding writes =
      outstanding + asked .reserve writes - asked .release writes - asked .settle writes := by
  induction writes generalizing outstanding with
  | nil => simp [afterWrites, asked]
  | cons write writes inductionHypothesis =>
      have counted := inductionHypothesis held.tail
      obtain ⟨ours, charged⟩ := held write List.mem_cons_self
      unfold afterWrites at counted ⊢
      rw [List.foldl_cons, if_neg (not_not.mpr ours), asked_cons, asked_cons, asked_cons]
      cases kind : write.kind with
      | abandoned => exact absurd kind charged
      | reserve | release | settle =>
          simp only [counted, reduceIte, reduceCtorEq]
          ring

/-- The query counts the holds taken and given back, and no settlement. -/
theorem holding_writes (config : BrokerConfig) (job : Job) {writes : List LedgerWrite} (now : Time)
    (ours : ∀ write ∈ writes, write.currency = job.currency) :
    sumWhere LedgerEntry.heldPart (ofJobIn job.jobId job.currency) (ledgerWrites config job writes now) =
      inserted .reserve writes - inserted .release writes := by
  induction writes with
  | nil => simp [ledgerWrites, inserted]
  | cons write writes inductionHypothesis =>
      have counted := inductionHypothesis fun each member => ours each (List.mem_cons_of_mem _ member)
      have mine := ours write List.mem_cons_self
      rw [ledgerWrites] at counted ⊢
      rw [List.map_cons, sumWhere_cons, counted, inserted_cons, inserted_cons]
      cases kind : write.kind <;>
        simp [insertLedger, ofJobIn, LedgerEntry.heldPart, mine] <;> ring

/-! ### What the last move leaves -/

/-- The rows of a last move that commits: the caller's own, and the release of the hold it read. -/
theorem transition_rows {job updated : Job} {target : JobState} {change : Change} {world next : World γ}
    (final : target.terminal = true)
    (ended : (transition job target change).whole world = (.ok updated, next)) :
    next.db.ledger = world.db.ledger ++ ledgerWrites world.config job
      (change.ledger ++ releaseRemainingHold job.currency (world.db.jobHolding job.jobId job.currency)
        change.ledger) (world.clock world.asked) := by
  unfold transition at ended
  simp only [final, reduceIte] at ended
  split at ended
  · rw [whole_now, whole_query, whole_executing] at ended
    split at ended
    · next after applied =>
      cases ended
      obtain ⟨db, written, rfl⟩ := Write.apply_eq applied
      obtain ⟨_, _, _, rfl⟩ := Db.moveJob_eq written
      rfl
    · cases ended
  · cases ended

/-- An amount that is not negative rounds to a count when it is within half a quantum of it. -/
theorem quantize_eq_iff {value : Decimal} {amount : Cents} (nonneg : 0 ≤ value) :
    quantize value = amount ↔
      money amount - quantum / 2 ≤ value ∧ value < money amount + quantum / 2 := by
  unfold quantize money
  rw [if_pos nonneg, Int.floor_eq_iff]
  have wide : (0 : ℚ) < quantum := by norm_num [quantum]
  have low : (amount : ℚ) ≤ value / quantum + 1 / 2 ↔ amount * quantum - quantum / 2 ≤ value := by
    rw [← sub_le_iff_le_add, le_div_iff₀ wide, sub_mul]
    ring_nf
  have high : value / quantum + 1 / 2 < amount + 1 ↔ value < amount * quantum + quantum / 2 := by
    rw [← lt_sub_iff_add_lt, div_lt_iff₀ wide, sub_mul, add_mul]
    ring_nf
  rw [low, high]

/-- What is held once a hold is released that the writes do not exceed. -/
theorem holding_released (config : BrokerConfig) (job : Job) {writes : List LedgerWrite}
    {holding : Cents} (now : Time) (held : Held job.currency writes)
    (within : 0 ≤ remaining holding writes) :
    sumWhere LedgerEntry.heldPart (ofJobIn job.jobId job.currency)
        (ledgerWrites config job (writes ++ releaseRemainingHold job.currency holding writes) now) =
      inserted .reserve writes - inserted .release writes - quantize (remaining holding writes) := by
  have outstanding : afterWrites job.currency (money holding) writes = remaining holding writes :=
    afterWrites_eq held _
  have split : ledgerWrites config job (writes ++ releaseRemainingHold job.currency holding writes) now =
      ledgerWrites config job writes now ++
        ledgerWrites config job (releaseRemainingHold job.currency holding writes) now :=
    List.map_append
  rw [split, sumWhere_append, holding_writes config job now fun write member => (held write member).1,
    sub_eq_add_neg _ (quantize _)]
  congr 1
  unfold releaseRemainingHold
  simp only [outstanding]
  split
  · next empty =>
    rw [le_antisymm empty within, quantize_zero]
    rfl
  · simp [ledgerWrites, insertLedger, ofJobIn, LedgerEntry.heldPart]

/-- A job that enters a terminal state, with writes of its caller's that do not exceed its hold, holds
nothing afterwards exactly when what they settle, and what rounding adds, is less than a quantum. -/
theorem released_iff (job updated : Job) (target : JobState) (change : Change) (world next : World γ)
    (final : target.terminal = true) (held : Held job.currency change.ledger)
    (within : 0 ≤ remaining (world.db.jobHolding job.jobId job.currency) change.ledger)
    (ended : (transition job target change).whole world = (.ok updated, next)) :
    next.db.jobHolding job.jobId job.currency = 0 ↔
      -quantum / 2 < leftHeld change.ledger ∧ leftHeld change.ledger ≤ quantum / 2 := by
  have before := jobHolding_eq world.db job.jobId job.currency
  rw [jobHolding_eq, transition_rows final ended, sumWhere_append, ← before,
    holding_released world.config job _ held within]
  generalize world.db.jobHolding job.jobId job.currency = holding at within ⊢
  -- the hold that the query reads back, and the hold that the release gives back
  have counts : holding + (inserted .reserve change.ledger - inserted .release change.ledger -
        quantize (remaining holding change.ledger)) = 0 ↔
      quantize (remaining holding change.ledger) =
        holding + inserted .reserve change.ledger - inserted .release change.ledger := by
    constructor <;> intro same <;> linarith
  have apart : money (holding + inserted .reserve change.ledger - inserted .release change.ledger) =
      remaining holding change.ledger + leftHeld change.ledger := by
    unfold remaining leftHeld
    rw [sub_eq_add_neg, money_add, money_add, show money (-inserted .release change.ledger) =
      -money (inserted .release change.ledger) from by simp [money]]
    ring
  rw [counts, quantize_eq_iff within, apart]
  constructor
  · intro near
    constructor <;> linarith
  · intro near
    constructor <;> linarith

/-- The club while its job runs: of four dollars, sixty cents are spent. -/
def World.midway : World Rack :=
  Rack.running.after (Operation.opening ++ Operation.ticks 2) (World.club .club)

/-- A job completes, and its caller writes rows. -/
def Change.completing (writes : List LedgerWrite) : Change where
  reason := .reported .completed none
  ledger := writes

/-- The caller takes half a dollar more and gives twenty cents back. -/
theorem released_iff_extended :
    ∃ job ∈ World.midway.db.jobs.find "job", ∃ updated next,
      (transition job .completed (.completing [⟨.reserve, 1 / 2, .usd⟩, ⟨.release, 1 / 5, .usd⟩])).whole
        World.midway = (.ok updated, next) ∧ next.db.jobHolding job.jobId job.currency = 0 := by
  let writes : List LedgerWrite := [⟨.reserve, 1 / 2, .usd⟩, ⟨.release, 1 / 5, .usd⟩]
  have finishes : ∃ job ∈ World.midway.db.jobs.find "job", Held job.currency writes ∧
      0 ≤ remaining (World.midway.db.jobHolding job.jobId job.currency) writes ∧
        ((transition job .completed (.completing writes)).whole World.midway).1.toOption.isSome = true := by
    decide +kernel
  obtain ⟨job, found, held, within, committed⟩ := finishes
  refine ⟨job, found, ?_⟩
  cases ended : (transition job .completed (.completing writes)).whole World.midway with
  | mk result next =>
      rw [ended] at committed
      cases result with
      | error error => cases committed
      | ok updated =>
          exact ⟨updated, next, rfl, (released_iff job updated .completed (.completing writes)
            World.midway next rfl held within ended).mpr (by decide +kernel)⟩

/-- The caller settles a dollar of the three dollars and forty cents that are held: of the hold, a
dollar is never given back. -/
theorem settled_stays_held :
    World.midway.db.jobHolding "job" .usd = 340 ∧
      ∃ job ∈ World.midway.db.jobs.find "job", job.state = .running ∧ job.currency = .usd ∧
        let finished :=
          (transition job .completed (.completing [⟨.settle, 1, .usd⟩])).whole World.midway
        (finished.1.toOption.map Job.state = some .completed) ∧
          finished.2.db.jobHolding "job" .usd = 100 := by
  decide +kernel

end GpuBroker.Broker
