/-
This file is what the ledger makes of machines that bill with no completed work
behind them. A pass of the reaper knows what a machine has burned since it was
launched and writes what the ledger does not carry yet, rounded.

The rounded differences telescope: what a machine has been charged after any
number of passes is the greatest of their rounded totals, whatever order they
come in and whatever else is written in between.
-/
import GpuBroker.Broker.Ceilings

namespace GpuBroker.Broker

open Library

variable {γ : Type}

/-! ### Passes -/

/-- What one call of `recordAbandoned` is given. -/
structure AbandonedPass where
  handle : String
  jobId : Option JobId
  userId : Option UserId
  currency : Currency
  burned : Decimal

/-- The call. -/
def AbandonedPass.record (pass : AbandonedPass) : Op γ Cents :=
  recordAbandoned pass.handle pass.jobId pass.userId pass.currency pass.burned

/-- What a pass writes when so much has been charged already. -/
def AbandonedPass.delta (pass : AbandonedPass) (already : Cents) : Cents :=
  quantize (pass.burned - money already)

/-- A transaction that charges no machine. -/
def Write.SparesMachines : Write → Prop
  | .abandon .. => False
  | _ => True

/-- What happens to the ledger of abandoned capacity: a pass of the reaper, or a transaction of
something else. -/
inductive AbandonedTurn where
  | pass (made : AbandonedPass)
  | other (write : Write) (spares : write.SparesMachines)

/-- What a turn makes of the world; a transaction that is rolled back leaves it alone. -/
def AbandonedTurn.apply (world : World γ) : AbandonedTurn → World γ
  | pass made => (made.record.whole world).2
  | other write _ =>
      match write.apply world with
      | .ok next => next
      | .error _ => world

/-- The world after some turns. -/
def World.afterTurns (world : World γ) (turns : List AbandonedTurn) : World γ :=
  turns.foldl AbandonedTurn.apply world

/-- The totals that the passes over a machine have found in one currency. -/
def burnedTotals (handle : String) (currency : Currency) (turns : List AbandonedTurn) : List Decimal :=
  turns.filterMap fun
    | .pass made => if made.handle = handle ∧ made.currency = currency then some made.burned else none
    | .other .. => none

/-- The greatest of some rounded totals, or nothing where none is positive. -/
def greatestRounded (totals : List Decimal) : Cents :=
  totals.foldl (fun most burned => max most (quantize burned)) 0

/-! ### Rounded differences -/

/-- A rounded difference, added where it is positive, is what reaches the rounded total. -/
theorem add_delta (burned : Decimal) {already : Cents} (nonneg : 0 ≤ already) :
    already + max 0 (quantize (burned - money already)) = max already (quantize burned) := by
  rcases le_or_gt (money already) burned with beyond | under
  · have rise : quantize (burned - money already) = quantize burned - already := by
      have scaled : money already / quantum = already := by
        unfold money
        rw [mul_div_assoc, div_self (by norm_num [quantum]), mul_one]
      have shifted : (burned - money already) / quantum + 1 / 2 =
          burned / quantum + 1 / 2 - ((already : Int) : ℚ) := by
        rw [sub_div, scaled]
        ring
      unfold quantize
      rw [if_pos (sub_nonneg.mpr beyond), if_pos ((money_nonneg.mpr nonneg).trans beyond), shifted,
        Int.floor_sub_intCast]
    have reached : already ≤ quantize burned := by
      calc already = quantize (money already) := (quantize_money already).symm
        _ ≤ quantize burned := quantize_mono beyond
    rw [rise, max_eq_right (sub_nonneg.mpr reached), max_eq_right reached]
    ring
  · have falls : quantize (burned - money already) ≤ 0 :=
      quantize_zero ▸ quantize_mono (sub_nonpos.mpr under.le)
    have below : quantize burned ≤ already := by
      calc quantize burned ≤ quantize (money already) := quantize_mono under.le
        _ = already := quantize_money already
    rw [max_eq_left falls, max_eq_left below, add_zero]

theorem delta_nonpos {pass : AbandonedPass} {already : Cents} (nonneg : 0 ≤ already)
    (carried : quantize pass.burned ≤ already) : pass.delta already ≤ 0 := by
  have total : already + max 0 (pass.delta already) = already :=
    (add_delta pass.burned nonneg).trans (max_eq_left carried)
  exact max_eq_left_iff.mp (add_eq_left.mp total)

theorem greatestRounded_append (totals : List Decimal) (burned : Decimal) :
    greatestRounded (totals ++ [burned]) = max (greatestRounded totals) (quantize burned) := by
  simp [greatestRounded]

theorem greatestRounded_nonneg (totals : List Decimal) : 0 ≤ greatestRounded totals := by
  induction totals using List.reverseRecOn with
  | nil => exact le_rfl
  | append_singleton totals burned inductionHypothesis =>
      rw [greatestRounded_append]
      exact le_max_of_le_left inductionHypothesis

theorem le_greatestRounded {totals : List Decimal} {burned : Decimal} (found : burned ∈ totals) :
    quantize burned ≤ greatestRounded totals := by
  induction totals using List.reverseRecOn with
  | nil => exact absurd found List.not_mem_nil
  | append_singleton totals last inductionHypothesis =>
      rw [greatestRounded_append]
      rcases List.mem_append.mp found with early | late
      · exact le_max_of_le_left (inductionHypothesis early)
      · rw [List.mem_singleton.mp late]
        exact le_max_right _ _

/-! ### One pass -/

/-- The row a pass writes; it names the job and the member only where the tables know them. -/
def AbandonedPass.row (pass : AbandonedPass) (world : World γ) : LedgerEntry :=
  insertLedger world.config (pass.jobId.filter fun id => (world.db.jobs.find id).isSome)
    (pass.userId.filter fun id => (world.db.users.find id).isSome) pass.currency .abandoned
    (money (pass.delta (world.db.abandonedForHandle pass.handle pass.currency)))
    (world.clock world.asked) (some pass.handle)

/-- A pass that finds nothing new writes nothing; another writes its one row and returns it. -/
theorem AbandonedPass.record_eq (pass : AbandonedPass) (world : World γ) :
    pass.record.whole world =
      if pass.delta (world.db.abandonedForHandle pass.handle pass.currency) ≤ 0 then (.ok 0, world)
      else
        (.ok (pass.delta (world.db.abandonedForHandle pass.handle pass.currency)),
          { world.ticked with
            db := { world.db with ledger := world.db.ledger ++ [pass.row world] } }) := by
  unfold record recordAbandoned
  rw [whole_query]
  show Program.whole (if pass.delta _ ≤ 0 then _ else _) world = _
  split
  · rfl
  · rw [whole_query, whole_query, whole_now, whole_executing]
    rfl

/-- What a call returns is what it wrote. -/
def AbandonedPass.Honest (pass : AbandonedPass) (world : World γ) : Prop :=
  ∃ paid rows, (pass.record.whole world).1 = .ok paid ∧
    (pass.record.whole world).2.db = { world.db with ledger := world.db.ledger ++ rows } ∧
    (rows.map LedgerEntry.amount).sum = paid ∧
    ∀ row ∈ rows, 0 < row.amount ∧ row.kind = .abandoned ∧ row.resourceHandle = some pass.handle ∧
      row.currency = pass.currency

theorem AbandonedPass.honest (pass : AbandonedPass) (world : World γ) : pass.Honest world := by
  unfold Honest
  rw [pass.record_eq]
  split
  · exact ⟨0, [], rfl, by rw [List.append_nil], rfl, fun row absent => absurd absent List.not_mem_nil⟩
  · next positive =>
    have amount : (pass.row world).amount =
        pass.delta (world.db.abandonedForHandle pass.handle pass.currency) := quantize_money _
    rw [not_le] at positive
    refine ⟨_, [pass.row world], rfl, rfl, by rw [List.map_singleton, List.sum_singleton, amount],
      fun row only => ?_⟩
    rw [List.mem_singleton.mp only]
    exact ⟨amount.symm ▸ positive, rfl, rfl, rfl⟩

/-! ### Any number of turns -/

theorem abandonedForHandle_append {db : Db} {rows : List LedgerEntry} {handle : String}
    {currency : Currency} :
    ({ db with ledger := db.ledger ++ rows } : Db).abandonedForHandle handle currency =
      db.abandonedForHandle handle currency +
        ((rows.filter fun row =>
          row.resourceHandle = some handle ∧ row.currency = currency ∧ row.kind = .abandoned).map
            LedgerEntry.amount).sum := by
  unfold Db.abandonedForHandle
  rw [List.filter_append, List.map_append, List.sum_append]

/-- A transaction of something else writes no row of a machine. -/
theorem Write.SparesMachines.unnamed {write : Write} (spares : write.SparesMachines)
    {config : BrokerConfig} {row : LedgerEntry} (written : row ∈ write.lines config) :
    row.resourceHandle = none := by
  cases write with
  | create job read =>
      simp only [Write.lines, admissionHold] at written
      split at written
      · rw [List.mem_singleton.mp written]
        rfl
      · exact absurd written List.not_mem_nil
  | move current target change now outstanding =>
      obtain ⟨line, -, rfl⟩ := List.mem_map.mp written
      rfl
  | settle job amount accrued now =>
      rcases List.mem_pair.mp written with rfl | rfl <;> rfl
  | abandon => exact spares.elim
  | insertUser | updateUser | suspend | restore | refuse | touch | sampled | notify | applyPrices =>
      exact absurd written List.not_mem_nil

theorem abandonedForHandle_other {write : Write} (spares : write.SparesMachines) {world next : World γ}
    (applied : write.apply world = .ok next) (handle : String) (currency : Currency) :
    next.db.abandonedForHandle handle currency = world.db.abandonedForHandle handle currency := by
  unfold Db.abandonedForHandle
  rw [Write.ledger_eq applied, List.filter_append]
  have nothing : ((write.lines world.config).filter fun row =>
      row.resourceHandle = some handle ∧ row.currency = currency ∧ row.kind = .abandoned) = [] := by
    refine List.filter_eq_nil_iff.mpr fun row written => ?_
    simp [spares.unnamed written]
  rw [nothing, List.append_nil]

/-- What one pass adds to the total of a machine. -/
theorem abandonedForHandle_pass (pass : AbandonedPass) (world : World γ) (handle : String)
    (currency : Currency) :
    (pass.record.whole world).2.db.abandonedForHandle handle currency =
      world.db.abandonedForHandle handle currency +
        if pass.handle = handle ∧ pass.currency = currency then
          max 0 (pass.delta (world.db.abandonedForHandle handle currency))
        else 0 := by
  rw [pass.record_eq]
  split
  · next nothing =>
    split
    · next same =>
      obtain ⟨rfl, rfl⟩ := same
      rw [max_eq_left nothing, add_zero]
    · rw [add_zero]
  · next positive =>
    rw [not_le] at positive
    refine abandonedForHandle_append.trans (congrArg _ ?_)
    have amount : (pass.row world).amount =
        pass.delta (world.db.abandonedForHandle pass.handle pass.currency) := quantize_money _
    split
    · next same =>
      obtain ⟨rfl, rfl⟩ := same
      rw [max_eq_right positive.le, ← amount]
      simp [AbandonedPass.row, insertLedger]
    · next apart =>
      have unlike : ¬((pass.row world).resourceHandle = some handle ∧
          (pass.row world).currency = currency ∧ (pass.row world).kind = .abandoned) :=
        fun alike => apart ⟨Option.some.inj alike.1, alike.2.1⟩
      rw [List.filter_cons_of_neg (by rwa [decide_eq_true_eq])]
      rfl

/-- The total of a machine after some turns is the greatest total that its passes found. -/
theorem abandonedForHandle_afterTurns {world : World γ} {handle : String} {currency : Currency}
    (fresh : world.db.abandonedForHandle handle currency = 0) (turns : List AbandonedTurn) :
    (world.afterTurns turns).db.abandonedForHandle handle currency =
      greatestRounded (burnedTotals handle currency turns) := by
  induction turns using List.reverseRecOn with
  | nil => exact fresh
  | append_singleton turns turn inductionHypothesis =>
      have last : world.afterTurns (turns ++ [turn]) = turn.apply (world.afterTurns turns) := by
        simp [World.afterTurns]
      rw [last]
      cases turn with
      | pass pass =>
          unfold AbandonedTurn.apply
          refine (abandonedForHandle_pass pass _ handle currency).trans ?_
          rw [inductionHypothesis]
          unfold burnedTotals
          rw [List.filterMap_append]
          split
          · next same =>
            simp only [List.filterMap_cons, if_pos same, List.filterMap_nil]
            rw [greatestRounded_append]
            exact add_delta pass.burned (greatestRounded_nonneg _)
          · next apart =>
            simp only [List.filterMap_cons, if_neg apart, List.filterMap_nil]
            rw [List.append_nil, add_zero]
      | other write spares =>
          have unheard : burnedTotals handle currency (turns ++ [.other write spares]) =
              burnedTotals handle currency turns := by
            simp [burnedTotals]
          rw [unheard, ← inductionHypothesis]
          simp only [AbandonedTurn.apply]
          split
          · next next applied => exact abandonedForHandle_other spares applied handle currency
          · rfl

/-- However the passes over machines and other transactions follow each other, a machine is charged the
greatest of the rounded totals that its passes found, and nothing where none is positive; every call
returns what it wrote, and a pass that is made again finds nothing to write. -/
theorem abandoned_is_running_maximum (world : World γ) (handle : String) (currency : Currency)
    (fresh : world.db.abandonedForHandle handle currency = 0) (turns : List AbandonedTurn) :
    (world.afterTurns turns).db.abandonedForHandle handle currency =
        greatestRounded (burnedTotals handle currency turns) ∧
      (∀ pass : AbandonedPass, pass.Honest (world.afterTurns turns)) ∧
      ∀ again : AbandonedPass, again.handle = handle → again.currency = currency →
        again.burned ∈ burnedTotals handle currency turns →
        again.record.whole (world.afterTurns turns) = (.ok 0, world.afterTurns turns) := by
  have total := abandonedForHandle_afterTurns fresh turns
  refine ⟨total, fun pass => pass.honest _, ?_⟩
  rintro again rfl rfl found
  rw [again.record_eq, total, if_pos]
  exact delta_nonpos (greatestRounded_nonneg _) (le_greatestRounded found)

/-- Passes over two machines that overlap and come out of order, with a new member in between. -/
def overlappingPasses : List AbandonedTurn :=
  [.pass ⟨"i-1", none, none, .usd, 14 / 1000⟩,
    .pass ⟨"i-1", some "ghost", some "nobody", .usd, 25 / 1000⟩,
    .other (.insertUser ⟨"ann", "ann", 100, 50, false, 0, none, "", ""⟩) trivial,
    .pass ⟨"i-2", none, some "ann", .usd, 9⟩,
    .pass ⟨"i-1", none, some "ann", .usd, 20 / 1000⟩]

theorem abandoned_is_running_maximum_overlapping :
    ((World.club .club).afterTurns overlappingPasses).db.abandonedForHandle "i-1" .usd = 3 ∧
      ((⟨"i-1", none, none, .usd, 25 / 1000⟩ : AbandonedPass).record.whole
        ((World.club .club).afterTurns overlappingPasses)).1.toOption = some 0 := by
  obtain ⟨total, -, again⟩ := abandoned_is_running_maximum (World.club .club) "i-1" .usd
    (by decide +kernel) overlappingPasses
  refine ⟨total.trans (by decide +kernel), ?_⟩
  rw [again ⟨"i-1", none, none, .usd, 25 / 1000⟩ rfl rfl (by decide +kernel)]
  rfl

end GpuBroker.Broker
