/-
This file is the methods that charge a job and read the pool, under the
contract.

What a job is charged is computed from reads made before the transaction, so the
bound on it rests on nobody else charging jobs. What the pool has left is read
job by job; a process that is alone reads what there is.
-/
import GpuBroker.Broker.Methods

namespace GpuBroker.Broker

open Library

variable {γ : Type} {setting : Setting γ} {world next : World γ}

/-! ### Settling a job -/

/-- Nobody else charges a job. -/
def Setting.Sole (setting : Setting γ) : Prop :=
  ∀ {world next : World γ}, setting.others world next → ∀ id,
    next.db.jobSpend id = world.db.jobSpend id

theorem sole_alone (alone : setting.alone) : setting.Sole := by
  intro world next moved id
  rw [setting.still alone moved]

/-- An amount that was accrued: within what the reservation leaves and, for a process that is alone,
exactly what the time run comes to. -/
structure Accrued (setting : Setting γ) (job : Job) (moment : Time) (world : World γ)
    (amount : Cents) : Prop where
  within : 0 < amount → amount ≤ job.reserved - world.db.jobSpend job.jobId
  exactly : setting.alone → Accrual world job moment amount

theorem Accrued.others {job : Job} {moment : Time} {amount : Cents} (sole : setting.Sole)
    (accrued : Accrued setting job moment world amount) (moved : setting.others world next) :
    Accrued setting job moment next amount := by
  refine ⟨fun positive => ?_, fun alone => ?_⟩
  · rw [sole moved]
    exact accrued.within positive
  · rw [setting.still alone moved]
    exact accrued.exactly alone

theorem Accrued.ticked {job : Job} {moment : Time} {amount : Cents}
    (accrued : Accrued setting job moment world amount) :
    Accrued setting job moment world.ticked amount :=
  ⟨accrued.within, accrued.exactly⟩

theorem safe_accrue {job : Job} {moment : Time} (sole : setting.Sole) (known : Known world job) :
    setting.Safe (accrue job moment)
      (fun amount next => Accrued setting job moment next amount ∧ setting.others world next)
      world := by
  refine safe_settings fun read others booked => ?_
  have typed := ((setting.persists others).known known).typed booked
  refine safe_orRaise typed.raises fun gpu found => safe_query ?_
  intro spent later _ final rest _
  have accrued : Accrued setting job moment spent (max 0
      (min (quantize (gpu.hourlyPrice * job.elapsedHours read.config.calendar moment)) job.reserved -
        spent.db.jobSpend job.jobId)) := by
    refine ⟨fun positive => ?_, fun alone => ?_⟩
    · rw [max_eq_right (lt_max_iff.mp positive |>.resolve_left (lt_irrefl 0)).le]
      exact sub_le_sub_right (min_le_right _ _) _
    · rw [setting.still alone later]
      exact ⟨gpu, found, rfl⟩
  exact ⟨accrued.others sole rest, setting.trans others (setting.trans later rest)⟩

/-- Settling a running job leaves every copy, its own included, as good as before. -/
theorem safe_settleAccrued {job : Job} {moment : Time} (sole : setting.Sole)
    (copy : setting.Copy job world) (active : job.state.active = true)
    (shown : world.Shown moment)
    (makes : ∀ amount now, setting.makes (.settle job amount moment now) world) :
    setting.Safe (settleAccrued job moment)
      (fun _ next => setting.Keeps none world next ∧ (setting.alone → next.cloud = world.cloud))
      world := by
  refine Program.Safe.bind (safe_accrue sole copy.1) fun amount current _ holds => ?_
  obtain ⟨accrued, first⟩ := holds
  have cloud : ∀ {one two : World γ}, setting.others one two → setting.alone →
      two.cloud = one.cloud := fun moved alone => by rw [setting.still alone moved]
  split
  case isFalse =>
    exact fun final others _ => ⟨(keeps_others first).trans (keeps_others others), fun alone =>
      (cloud others alone).trans (cloud first alone)⟩
  case isTrue positive =>
    have charge : setting.Safe (settle job (money amount) moment)
        (fun _ next => setting.Keeps none world next ∧ (setting.alone → next.cloud = world.cloud))
        current := by
      unfold settle
      rw [quantize_money, if_neg (not_le.mpr positive)]
      refine safe_now fun asked others _ => ?_
      have looked : Looked setting world asked.ticked :=
        ((looked_others first).trans (looked_others others)).trans looked_ticked
      refine safe_executing (fun now later _ => ?_) ?_
      · have whole := looked.trans (looked_others later)
        have copyHere := whole.keeps.copy copy
        have accruedHere := ((accrued.others sole others).ticked).others sole later
        refine ⟨whole.makes (makes _ _), ⟨copyHere.1, active, positive, accruedHere.within positive,
          (setting.persists later).shown asked.ticked_shown⟩, trivial, fun alone =>
            ⟨copyHere.2 alone, ?_, whole.keeps.1.shown shown, accruedHere.exactly alone⟩,
          fun _ => trivial⟩
        rw [setting.still alone later]
        exact asked.ticked_last.symm
      · intro now after final later _ _ applied _ rest _
        refine ⟨(looked.trans (looked_others later)).keeps.trans
          ((keeps_apply applied).trans (keeps_others rest)), fun alone => ?_⟩
        obtain ⟨db, _, same⟩ := Write.apply_eq applied
        rw [cloud rest alone, same]
        exact (cloud later alone).trans ((cloud others alone).trans (cloud first alone))
    exact Program.Safe.bind charge fun _ next _ kept final others _ =>
      ⟨kept.1.trans (keeps_others others), fun alone => (cloud others alone).trans (kept.2 alone)⟩

/-! ### Reading the pool -/

/-- The holds of the jobs of a list in one currency. -/
def holdsOf (db : Db) (currency : Currency) (jobs : List Job) : Cents :=
  ((jobs.filter fun job => job.currency = currency).map fun job =>
    db.jobHolding job.jobId currency).sum

theorem holdsOf_cons (db : Db) (currency : Currency) (job : Job) (jobs : List Job) :
    holdsOf db currency (job :: jobs) =
      (if job.currency = currency then db.jobHolding job.jobId currency else 0) +
        holdsOf db currency jobs := by
  by_cases same : job.currency = currency <;> simp [holdsOf, same]

/-- The holds of the active jobs, taken one after another, are those of the table. -/
theorem holdsOf_activeJobs (db : Db) (currency : Currency) :
    holdsOf db currency db.activeJobs = db.activeHolds currency := by
  have permuted : db.activeJobs.Perm (db.jobs.rows.filter fun job => job.state.active) :=
    db.listJobs_perm _
  have counted : ∀ rows : List Job,
      holdsOf db currency (rows.filter fun job => job.state.active) =
        (rows.map fun job => if job.state.active ∧ job.currency = currency
          then db.jobHolding job.jobId currency else 0).sum := by
    intro rows
    induction rows with
    | nil => rfl
    | cons job rows inductionHypothesis =>
        by_cases active : job.state.active = true
        · rw [List.filter_cons_of_pos (by simpa using active), holdsOf_cons, inductionHypothesis]
          simp [active]
        · rw [List.filter_cons_of_neg (by simpa using active), inductionHypothesis]
          simp [active]
  calc holdsOf db currency db.activeJobs
      = holdsOf db currency (db.jobs.rows.filter fun job => job.state.active) :=
        ((permuted.filter _).map _).sum_eq
    _ = db.activeHolds currency := counted db.jobs.rows

theorem safe_addHolding {currency : Currency} {holds : Cents} {job : Job} :
    setting.Safe (addHolding currency holds job)
      (fun total next => setting.others world next ∧
        (setting.alone → total = holds + holdsOf world.db currency [job])) world := by
  unfold addHolding
  rw [holdsOf_cons]
  split
  · refine safe_query fun read others _ final later _ => ⟨setting.trans others later,
      fun alone => ?_⟩
    rw [setting.still alone others]
    exact congrArg (holds + ·) (add_zero _).symm
  · exact fun final later _ => ⟨later, fun _ => (add_zero _).symm⟩

theorem safe_addHoldings {currency : Currency} {jobs : List Job} {holds : Cents} :
    setting.Safe (jobs.foldlM (addHolding currency) holds)
      (fun total next => setting.others world next ∧
        (setting.alone → total = holds + holdsOf world.db currency jobs)) world := by
  induction jobs generalizing holds world with
  | nil => exact fun final later _ => ⟨later, fun _ => (add_zero _).symm⟩
  | cons job jobs inductionHypothesis =>
      rw [List.foldlM_cons]
      refine Program.Safe.bind safe_addHolding fun added middle _ first => ?_
      refine Program.Safe.weaken inductionHypothesis fun total next _ second =>
        ⟨setting.trans first.1 second.1, fun alone => ?_⟩
      rw [second.2 alone, first.2 alone, setting.still alone first.1, holdsOf_cons, holdsOf_cons]
      show holds + (_ + 0) + _ = _
      rw [add_zero, add_assoc]

/-- What the pool has committed, read by a process that is alone, is what it is in the month of a
reading the clock gave meanwhile. -/
theorem safe_poolCommitted {currency : Currency} :
    setting.Safe (poolCommitted currency)
      (fun committed next => Looked setting world next ∧ (setting.alone → next = world.ticked ∧
        committed = world.db.poolSpent currency
            (world.config.calendar.period (world.clock world.asked)) +
          world.db.activeHolds currency))
      world := by
  refine safe_settings fun configured others _ => safe_now fun asked later _ => ?_
  refine safe_query fun spent third _ => safe_query fun listed fourth _ => ?_
  have looked : Looked setting world listed :=
    (looked_others others).trans <| (looked_others later).trans <|
      looked_ticked.trans <| (looked_others third).trans (looked_others fourth)
  refine Program.Safe.bind safe_addHoldings fun holds next _ added final last _ => ?_
  refine ⟨looked.trans ((looked_others added.1).trans (looked_others last)), fun alone => ?_⟩
  rw [setting.still alone last, added.2 alone, zero_add, holdsOf_activeJobs,
    setting.still alone added.1, setting.still alone fourth, setting.still alone third,
    setting.still alone later, setting.still alone others]
  exact ⟨rfl, rfl⟩

/-- The headroom of a currency, read by a process that is alone, is room in the pool. -/
theorem safe_poolHeadroom {currency : Currency} :
    setting.Safe (poolHeadroom currency)
      (fun headroom next => Looked setting world next ∧
        (setting.alone → Room next currency headroom)) world := by
  refine safe_settings fun configured others booked => ?_
  refine Program.Safe.bind safe_poolCommitted fun committed next _ read final last _ => ?_
  refine ⟨(looked_others others).trans (read.1.trans (looked_others last)), fun alone => ?_⟩
  obtain ⟨rfl, same⟩ := read.2 alone
  rw [setting.still alone last, same]
  refine ⟨configured.asked, Nat.lt_succ_self _, fun row member => (booked.rows row member).shown, ?_⟩
  show money _ + (configured.config.poolBudget currency - money _) ≤
    configured.config.poolBudget currency
  exact (add_sub_cancel _ _).le

end GpuBroker.Broker
