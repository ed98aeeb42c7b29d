/-
This file is a job on the fake that is polled, interrupted, stopped and launched
again, in any order, and what its attempts come to.

An attempt begins with a number of steps and their sum, and whatever it saves it
computes from these two. So it is enough that the sum is right where it begins:
then it is right at each step it saves, and the attempt that begins at the
newest of these begins right again. Which steps are saved and when is left to
the clock; no more is used of it than that an attempt is between its first step
and its last.
-/
import GpuBroker.Library.Course
import GpuBroker.Broker.Progress

namespace GpuBroker.Broker

open Library

variable {δ : Type}

/-! ### A machine that is taken away -/

/-- `steps_done(resource)` -/
def FakeBackend.stepsDone (backend : FakeBackend δ) (resource : FakeResource) : Simulated δ Int :=
  if resource.totalSteps ≤ 0 then pure 0
  else do
    let now ← backend.moment
    pure (resource.stepsDone (timestamp now))

/-- Take the capacity away: the job saves what it has, and then the machine goes. -/
def FakeBackend.interrupt (backend : FakeBackend δ) (handle : String) : Simulated δ Unit := do
  match ← Simulated.find handle with
  | none => pure ()
  | some resource =>
      if resource.terminated then pure ()
      else do
        let step ← backend.stepsDone resource
        let resource ← if 0 < resource.totalSteps && resource.startStep < step then backend.save resource step
          else pure resource
        let now ← backend.moment
        Simulated.keep
          { resource with
            finishAt := timestamp now
            outcome := .interrupted
            logs := resource.logs ++ [("broker", s!"capacity interrupted at step {step}")] }

/-- What is done to a job on the fake. -/
inductive FakeCall where
  | launch (job : Job)
  | poll (handle : String)
  | interrupt (handle : String)
  | terminate (handle reason : String)
  | fetchLogs (handle : String) (after : Nat)
  | sampleUtilization (handle : String)

namespace FakeBackend

variable (backend : FakeBackend δ)

/-- What a call leaves. -/
def called (simulation : Simulation δ) : FakeCall → Simulation δ
  | .launch job => ((backend.launch job).whole simulation).2
  | .poll handle => ((backend.poll handle).whole simulation).2
  | .interrupt handle => ((backend.interrupt handle).whole simulation).2
  | .terminate handle reason => ((FakeBackend.terminate handle reason).whole simulation).2
  | .fetchLogs handle after => ((backend.fetchLogs handle after).whole simulation).2
  | .sampleUtilization handle => ((backend.sampleUtilization handle).whole simulation).2

/-- What calls leave, one after another. -/
def after (simulation : Simulation δ) (calls : List FakeCall) : Simulation δ :=
  calls.foldl backend.called simulation

end FakeBackend

/-- The steps that a job is scripted to do. -/
def Simulation.totalOf (simulation : Simulation δ) (jobId : JobId) : Int :=
  ((simulation.fake.plans.lookup jobId).getD {}).totalSteps

/-! ### Sums of steps -/

/-- The sum up to a step and the sum from there on are the sum. -/
theorem sumOfSteps_add {start step : Int} (began : 0 ≤ start) (ahead : start ≤ step) :
    sumOfSteps start +
        ((List.range (step - start).toNat).map fun done : Nat => start + (done : Int)).sum = sumOfSteps step := by
  obtain ⟨first, rfl⟩ := Int.eq_ofNat_of_zero_le began
  obtain ⟨more, rfl⟩ := Int.le.dest ahead
  unfold sumOfSteps
  have span : ((first : Int) + more - first).toNat = more := by omega
  have whole : ((first : Int) + more).toNat = first + more := by omega
  rw [span, whole, Int.toNat_natCast, List.range_add, List.map_append, List.sum_append, List.map_map]
  congr 2

/-- A part of a number of steps, cut to a whole one, is one of them. -/
theorem whole_bounds {fraction : ℚ} {steps : Int} (low : 0 ≤ fraction) (high : fraction ≤ 1) (some : 0 ≤ steps) :
    0 ≤ FakeResource.whole (fraction * steps) ∧ FakeResource.whole (fraction * steps) ≤ steps := by
  have cast : (0 : ℚ) ≤ steps := Int.cast_nonneg some
  have positive : 0 ≤ fraction * steps := mul_nonneg low cast
  have most : fraction * steps ≤ steps := mul_le_of_le_one_left cast high
  unfold FakeResource.whole
  rw [if_pos positive]
  exact ⟨Int.floor_nonneg.mpr positive, Int.floor_le_iff.mpr (by linarith)⟩

namespace FakeResource

/-- What an attempt that began with the right sum has at a step is the right sum. -/
theorem valueAt_eq {resource : FakeResource} (carried : resource.startValue = sumOfSteps resource.startStep)
    (began : 0 ≤ resource.startStep) {step : Int} (ahead : resource.startStep ≤ step) :
    resource.valueAt step = sumOfSteps step := by
  rw [← sumOfSteps_add began ahead, ← carried]
  unfold valueAt
  have lifted : ∀ list : List Nat, (do let done ← list; pure (done : Int)) =
      list.map fun done : Nat => (done : Int) := fun list => (List.map_eq_flatMap).symm
  rw [lifted, List.map_map]
  rfl

/-- An attempt is between its first step and its last. -/
theorem stepsDone_bounds {resource : FakeResource} (work : 0 < resource.totalSteps)
    (ahead : resource.startStep ≤ resource.totalSteps) (now : ℚ) :
    resource.startStep ≤ resource.stepsDone now ∧ resource.stepsDone now ≤ resource.totalSteps := by
  unfold stepsDone
  rw [if_neg (not_le.mpr work)]
  have fraction : ∀ part : ℚ, 0 ≤ min (max part 0) 1 ∧ min (max part 0) 1 ≤ 1 := fun part =>
    ⟨le_min (le_max_right _ _) zero_le_one, min_le_right _ _⟩
  obtain ⟨low, high⟩ := fraction ((now - resource.readyAt) /
    max (resource.finishAt - resource.readyAt) (1 / 1000000000))
  have bounds := whole_bounds low high (sub_nonneg.mpr ahead)
  rw [Int.cast_sub] at bounds
  constructor <;> simp only <;> omega

end FakeResource

/-! ### What a store is relied on for -/

/-- A checkpoint store that keeps what the fake saves: as long as only sums are saved, of jobs with names,
each at one of the job's steps, there is no failure, what was saved stays, and what is restored is the
highest step. -/
structure Archive (checkpoints : FakeCheckpoints δ) (named : JobId → Prop) (total : JobId → Int) where
  kept : δ → Prop
  has : JobId → Int → δ → Prop
  bounded : ∀ {jobId step state}, kept state → named jobId → has jobId step state →
    0 < step ∧ step ≤ total jobId
  put : ∀ {jobId step state} moment, kept state → named jobId → 0 < step → step ≤ total jobId →
    ∃ left, checkpoints.put jobId step (sumOfSteps step) moment state = (.ok (), left) ∧ kept left ∧
      has jobId step left ∧ ∀ other also, named other → has other also state → has other also left
  restore : ∀ {jobId state}, kept state → named jobId →
    (checkpoints.restore jobId state = (.ok none, state) ∧ ∀ step, ¬ has jobId step state) ∨
      ∃ top, checkpoints.restore jobId state = (.ok (some (top, sumOfSteps top)), state) ∧
        has jobId top state ∧ ∀ step, has jobId step state → step ≤ top

/-- The stores keep what the fake saves, of jobs whose names have no slash. -/
def CheckpointStore.archive {Body Text : Type} (store : CheckpointStore) (codec : ProgressCodec Body Text)
    (text : StoreError → String) (scratch : String) (total : JobId → Int) :
    Archive (store.progress codec text scratch) (fun jobId => '/' ∉ jobId.toList) total where
  kept := store.Kept codec total
  has := store.Has
  bounded kept free has := kept.bounded free has
  put moment kept free positive most := by
    obtain ⟨ref, left, answered, rest⟩ := kept.put free positive most scratch moment
    refine ⟨left, ?_, rest⟩
    unfold CheckpointStore.progress
    simp only [answered]
    rfl
  restore kept free := by
    rcases kept.newestState free with ⟨empty, none⟩ | ⟨top, has, most, some⟩
    · refine .inl ⟨?_, empty⟩
      unfold CheckpointStore.progress
      simp only [none]
      rfl
    · refine .inr ⟨top, ?_, has, most⟩
      unfold CheckpointStore.progress
      simp only [some codec.progressOf _ (codec.progressOf_saved _ _)]
      rfl

/-! ### Attempts -/

section Attempts

variable {checkpoints : FakeCheckpoints δ} {named : JobId → Prop} {total : JobId → Int}

/-- An attempt that began right: with the sum of the steps before its first one, which is one of its job's
steps; and when it has saved its last step, that is in the store. -/
structure Attempt (archive : Archive checkpoints named total) (resource : FakeResource) (state : δ) :
    Prop where
  named : named resource.jobId
  total : resource.totalSteps = total resource.jobId
  began : 0 ≤ resource.startStep
  ahead : 0 < resource.totalSteps → resource.startStep ≤ resource.totalSteps
  carried : resource.startValue = sumOfSteps resource.startStep
  saved : 0 < resource.totalSteps → resource.totalSteps ≤ resource.lastSavedStep →
    archive.has resource.jobId resource.totalSteps state

/-- A simulation in which every attempt began right, and which still has what was saved at some time. -/
structure Progressing (archive : Archive checkpoints named total) (base : δ) (simulation : Simulation δ) :
    Prop where
  scripted : ∀ jobId, simulation.totalOf jobId = total jobId
  kept : archive.kept simulation.rest
  attempts : ∀ handle resource, simulation.fake.resources.find handle = some resource →
    Attempt archive resource simulation.rest
  grown : ∀ jobId step, named jobId → archive.has jobId step base → archive.has jobId step simulation.rest

variable {archive : Archive checkpoints named total} {base : δ} {simulation : Simulation δ}
  {resource : FakeResource}

theorem Progressing.read (progressing : Progressing archive base simulation) :
    Progressing archive base { simulation with fake := simulation.fake.read } :=
  ⟨progressing.scripted, progressing.kept, progressing.attempts, progressing.grown⟩

theorem Progressing.counted (progressing : Progressing archive base simulation) {number : Nat} :
    Progressing archive base { simulation with fake := { simulation.fake with counter := number } } :=
  ⟨progressing.scripted, progressing.kept, progressing.attempts, progressing.grown⟩

/-- An attempt goes on to be one that began right when the store keeps what it has. -/
theorem Attempt.stored {state left : δ} (attempt : Attempt archive resource state)
    (stays : ∀ other also, named other → archive.has other also state → archive.has other also left) :
    Attempt archive resource left :=
  { attempt with saved := fun work late => stays _ _ attempt.named (attempt.saved work late) }

theorem Progressing.keep (progressing : Progressing archive base simulation) (attempt : Attempt archive resource simulation.rest) :
    Progressing archive base { simulation with fake := simulation.fake.put resource } := by
  refine ⟨progressing.scripted, progressing.kept, fun handle other found => ?_, progressing.grown⟩
  have found : (simulation.fake.resources.put resource).find handle = some other := found
  rw [Table.find_put] at found
  split at found
  · cases found
    exact attempt
  · exact progressing.attempts handle other found

theorem Progressing.store (progressing : Progressing archive base simulation) {left : δ} (kept : archive.kept left)
    (stays : ∀ other also, named other → archive.has other also simulation.rest →
      archive.has other also left) : Progressing archive base { simulation with rest := left } :=
  ⟨progressing.scripted, kept, fun handle resource found => (progressing.attempts handle resource found).stored stays,
    fun jobId step named had => stays jobId step named (progressing.grown jobId step named had)⟩

/-! ### What the calls keep -/

/-- A call raises nothing, keeps attempts right wherever it may be stopped, and comes to a result. -/
abbrev Keeps {α : Type} (archive : Archive checkpoints named total) (base : δ) (method : Simulated δ α)
    (post : α → Simulation δ → Prop) (simulation : Simulation δ) : Prop :=
  method.Course (Progressing archive base) post (fun _ => False) simulation

variable {α β : Type} {post : β → Simulation δ → Prop} {backend : FakeBackend δ}

theorem keeps_pure {value : β} (progressing : Progressing archive base simulation) (holds : post value simulation) :
    Keeps archive base (pure value : Simulated δ β) post simulation :=
  ⟨progressing, holds⟩

theorem keeps_moment {rest : Time → Simulated δ β} (progressing : Progressing archive base simulation)
    (resume : ∀ now, Progressing archive base { simulation with fake := simulation.fake.read } →
      Keeps archive base (rest now) post { simulation with fake := simulation.fake.read }) :
    Keeps archive base (backend.moment >>= rest) post simulation :=
  ⟨progressing, resume _ progressing.read⟩

theorem keeps_keep {rest : Unit → Simulated δ β} (progressing : Progressing archive base simulation)
    (attempt : Attempt archive resource simulation.rest)
    (resume : Progressing archive base { simulation with fake := simulation.fake.put resource } →
      Keeps archive base (rest ()) post { simulation with fake := simulation.fake.put resource }) :
    Keeps archive base (Simulated.keep resource >>= rest) post simulation :=
  ⟨progressing, resume (progressing.keep attempt)⟩

/-- The rule of a call of the store that answers. -/
theorem keeps_store {call : δ → Except String α × δ} {rest : α → Simulated δ β} {value : α} {left : δ}
    (answered : call simulation.rest = (.ok value, left)) (progressing : Progressing archive base simulation)
    (resume : Keeps archive base (rest value) post { simulation with rest := left }) :
    Keeps archive base (Simulated.store call >>= rest) post simulation := by
  refine ⟨progressing, ?_⟩
  dsimp only
  rw [answered]
  exact resume

/-- The rule of a method that begins with a machine. -/
theorem keeps_find {handle : String} {rest : Option FakeResource → Simulated δ β}
    (progressing : Progressing archive base simulation)
    (missing : simulation.fake.resources.find handle = none → Keeps archive base (rest none) post simulation)
    (there : ∀ resource, simulation.fake.resources.find handle = some resource →
      Attempt archive resource simulation.rest → Keeps archive base (rest (some resource)) post simulation) :
    Keeps archive base (Simulated.find handle >>= rest) post simulation := by
  refine .read progressing ?_
  cases found : simulation.fake.resources.find handle with
  | none => exact missing found
  | some resource => exact there resource found (progressing.attempts handle resource found)

/-- The rule of a checkpoint at one of an attempt's steps. -/
theorem keeps_save {step : Int} {rest : FakeResource → Simulated δ β}
    (stored : backend.checkpoints = some checkpoints) (progressing : Progressing archive base simulation)
    (attempt : Attempt archive resource simulation.rest) (positive : 0 < step)
    (ahead : resource.startStep ≤ step) (most : step ≤ resource.totalSteps)
    (resume : ∀ saved after, Progressing archive base after → Attempt archive saved after.rest →
      saved.jobId = resource.jobId →
      (resource.totalSteps ≤ step → archive.has resource.jobId resource.totalSteps after.rest) →
        Keeps archive base (rest saved) post after) :
    Keeps archive base (backend.save resource step >>= rest) post simulation := by
  unfold FakeBackend.save
  rw [stored]
  simp only
  split
  · next done =>
    exact resume resource simulation progressing attempt rfl fun last =>
      attempt.saved (positive.trans_le most) (last.trans done)
  · rw [bind_assoc]
    refine keeps_moment progressing fun now progressing => ?_
    rw [resource.valueAt_eq attempt.carried attempt.began ahead]
    have limit : step ≤ total resource.jobId := attempt.total ▸ most
    obtain ⟨left, answered, kept, has, stays⟩ := archive.put now progressing.kept attempt.named positive limit
    have goesOn : Progressing archive base ⟨simulation.fake.read, left⟩ := progressing.store kept stays
    have later : Attempt archive { resource with lastSavedStep := step } left :=
      { attempt.stored stays with
        saved := fun work late => by
          rw [show resource.totalSteps = step from le_antisymm late most]
          exact has }
    rw [bind_assoc]
    refine keeps_store answered progressing ?_
    rw [bind_assoc]
    refine keeps_keep goesOn later fun goesOn => resume _ _ goesOn later rfl fun last => ?_
    rw [show resource.totalSteps = step from le_antisymm last most]
    exact has

/-- The rule of a checkpoint at the last boundary that was passed. -/
theorem keeps_maybeCheckpoint {rest : FakeResource → Simulated δ β}
    (stored : backend.checkpoints = some checkpoints) (progressing : Progressing archive base simulation)
    (attempt : Attempt archive resource simulation.rest)
    (resume : ∀ saved after, Progressing archive base after → Attempt archive saved after.rest →
      Keeps archive base (rest saved) post after) :
    Keeps archive base (backend.maybeCheckpoint resource >>= rest) post simulation := by
  unfold FakeBackend.maybeCheckpoint
  split
  · exact resume resource simulation progressing attempt
  · next scripted =>
    rw [Bool.or_eq_true, decide_eq_true_eq, decide_eq_true_eq, not_or, not_le, not_le] at scripted
    obtain ⟨every, work⟩ := scripted
    rw [bind_assoc]
    refine keeps_moment progressing fun now progressing => ?_
    simp only
    split
    · next passed =>
      rw [Bool.and_eq_true, decide_eq_true_eq, decide_eq_true_eq] at passed
      have reached := (resource.stepsDone_bounds work (attempt.ahead work) (timestamp now)).2
      have boundary := Int.ediv_mul_le (resource.stepsDone (timestamp now)) every.ne'
      exact keeps_save stored progressing attempt (attempt.began.trans_lt passed.2) passed.2.le
        (boundary.trans reached) fun saved after progressing attempt _ _ => resume saved after progressing attempt
    · exact resume resource _ progressing attempt

/-- A poll that reports the end of a job's work finds its last step saved. -/
theorem keeps_poll {handle : String} (stored : backend.checkpoints = some checkpoints)
    (progressing : Progressing archive base simulation) :
    Keeps archive base (backend.poll handle) (fun observation after => observation.status = .completed →
      ∀ resource, simulation.fake.resources.find handle = some resource → 0 < resource.totalSteps →
        archive.has resource.jobId resource.totalSteps after.rest) simulation := by
  refine keeps_find progressing (fun _ => keeps_pure progressing nofun) fun resource found attempt => ?_
  refine keeps_moment progressing fun now progressing => ?_
  split
  · exact keeps_pure progressing nofun
  · split
    · exact keeps_pure progressing nofun
    · split
      · refine keeps_maybeCheckpoint stored progressing attempt fun saved after progressing attempt => ?_
        split
        · exact keeps_pure progressing nofun
        · have logged : Attempt archive { saved with
              logs := saved.logs ++ [("stdout", s!"{String.ofList (saved.jobId.toList.take 8)}: training started")]
              loggedStart := true } after.rest := { attempt with }
          exact keeps_keep progressing logged fun progressing => keeps_pure progressing nofun
      · simp only
        split
        · next beyond =>
          rw [Bool.and_eq_true, decide_eq_true_eq] at beyond
          refine keeps_save stored progressing attempt beyond.1 (attempt.ahead beyond.1) le_rfl
            fun saved after progressing _ _ last => keeps_pure progressing fun _ other same _ => ?_
          cases found.symm.trans same
          exact last le_rfl
        · next beyond =>
          refine keeps_pure progressing fun completed other same work => ?_
          cases found.symm.trans same
          refine absurd ?_ beyond
          rw [Bool.and_eq_true, decide_eq_true_eq, decide_eq_true_eq]
          exact ⟨work, completed⟩

/-- The end of an interruption. -/
theorem keeps_taken {step : Int} (progressing : Progressing archive base simulation)
    (attempt : Attempt archive resource simulation.rest) :
    Keeps archive base (do
      let now ← backend.moment
      Simulated.keep
        { resource with
          finishAt := timestamp now
          outcome := .interrupted
          logs := resource.logs ++ [("broker", s!"capacity interrupted at step {step}")] })
      (fun _ _ => True) simulation := by
  refine keeps_moment progressing fun now progressing => ?_
  have taken : Attempt archive { resource with
      finishAt := timestamp now
      outcome := .interrupted
      logs := resource.logs ++ [("broker", s!"capacity interrupted at step {step}")] } simulation.rest :=
    { attempt with }
  exact ⟨progressing, progressing.keep taken, trivial⟩

theorem keeps_interrupt {handle : String} (stored : backend.checkpoints = some checkpoints)
    (progressing : Progressing archive base simulation) :
    Keeps archive base (backend.interrupt handle) (fun _ _ => True) simulation := by
  refine keeps_find progressing (fun _ => keeps_pure progressing trivial) fun resource found attempt => ?_
  dsimp only
  split
  · exact keeps_pure progressing trivial
  · unfold FakeBackend.stepsDone
    rcases le_or_gt resource.totalSteps 0 with idle | work
    · rw [if_pos idle]
      have skipped : ¬ (0 < resource.totalSteps && resource.startStep < 0) = true := by
        rw [Bool.and_eq_true, decide_eq_true_eq]
        exact fun both => absurd both.1 (not_lt.mpr idle)
      simp only [pure_bind, if_neg skipped]
      exact keeps_taken progressing attempt
    · rw [if_neg (not_le.mpr work), bind_assoc]
      refine keeps_moment progressing fun now progressing => ?_
      rw [pure_bind]
      obtain ⟨_, most⟩ := resource.stepsDone_bounds work (attempt.ahead work) (timestamp now)
      split
      · next further =>
        rw [Bool.and_eq_true, decide_eq_true_eq, decide_eq_true_eq] at further
        exact keeps_save stored progressing attempt (attempt.began.trans_lt further.2) further.2.le most
          fun saved after progressing attempt _ _ => keeps_taken progressing attempt
      · exact keeps_taken progressing attempt

theorem keeps_terminate {handle reason : String} (progressing : Progressing archive base simulation) :
    Keeps archive base (FakeBackend.terminate handle reason) (fun _ _ => True) simulation := by
  refine keeps_find progressing (fun _ => keeps_pure progressing trivial) fun resource found attempt => ?_
  have stopped : Attempt archive { resource with
      terminated := true
      terminateReason := some reason
      logs := resource.logs ++ [("broker", s!"terminated: {reason}")] } simulation.rest :=
    { attempt with }
  exact ⟨progressing, progressing.keep stopped, trivial⟩

theorem keeps_fetchLogs {handle : String} {after : Nat} (progressing : Progressing archive base simulation) :
    Keeps archive base (backend.fetchLogs handle after) (fun _ _ => True) simulation := by
  refine keeps_find progressing (fun _ => keeps_pure progressing trivial) fun resource found attempt => ?_
  refine keeps_moment progressing fun now progressing => ?_
  split
  · have closed : Attempt archive
        { resource with logs := resource.logs ++ [("stdout", resource.closingLine)] } simulation.rest :=
      { attempt with }
    exact keeps_keep progressing closed fun progressing => keeps_pure progressing trivial
  · exact keeps_pure progressing trivial

theorem keeps_sampleUtilization {handle : String} (progressing : Progressing archive base simulation) :
    Keeps archive base (backend.sampleUtilization handle) (fun _ _ => True) simulation := by
  refine keeps_find progressing (fun _ => keeps_pure progressing trivial) fun resource found attempt => ?_
  refine keeps_moment progressing fun now progressing => ?_
  split
  · exact keeps_pure progressing trivial
  · exact ⟨progressing, keeps_moment progressing fun now progressing => keeps_pure progressing trivial⟩

/-- Free slots are counted without a look at what is stored. -/
theorem keeps_freeSlots {gpuType : String} (progressing : Progressing archive base simulation) :
    Keeps archive base (backend.freeSlots gpuType) (fun _ after => after.rest = simulation.rest) simulation := by
  unfold FakeBackend.freeSlots
  split
  · exact keeps_pure progressing rfl
  · refine ⟨progressing, ?_⟩
    have counted : Keeps archive base (backend.inUse gpuType simulation.fake.resources.rows)
        (fun _ after => after.rest = simulation.rest) simulation := by
      refine Program.Course.foldlM (fun _ after => after.rest = simulation.rest)
        (fun item items count current progressing same => ?_) progressing rfl
      split
      · exact keeps_pure progressing same
      · exact keeps_moment progressing fun now progressing => keeps_pure progressing same
    exact counted.bind fun used current progressing same => keeps_pure progressing same

/-- The step and the sum of the newest checkpoint of a job; nothing done, when there is none. -/
def Archive.Newest (archive : Archive checkpoints named total) (jobId : JobId) (state : δ) (step value : Int) :
    Prop :=
  ((∀ other, ¬ archive.has jobId other state) ∧ step = 0 ∧ value = 0) ∨
    (archive.has jobId step state ∧ (∀ other, archive.has jobId other state → other ≤ step) ∧
      value = sumOfSteps step)

theorem keeps_restore {job : Job} (stored : backend.checkpoints = some checkpoints)
    (progressing : Progressing archive base simulation) (its : named job.jobId) :
    Keeps archive base (backend.restore job) (fun begins after => after = simulation ∧
      archive.Newest job.jobId simulation.rest begins.1 begins.2) simulation := by
  unfold FakeBackend.restore
  rw [stored]
  rcases archive.restore progressing.kept its with ⟨answered, empty⟩ | ⟨top, answered, has, most⟩
  · exact keeps_store answered progressing (keeps_pure progressing ⟨rfl, .inl ⟨empty, rfl, rfl⟩⟩)
  · exact keeps_store answered progressing (keeps_pure progressing ⟨rfl, .inr ⟨has, most, rfl⟩⟩)

/-- An attempt that begins at the newest checkpoint begins right. -/
theorem attempt_newest {state : δ} (kept : archive.kept state) (its : named resource.jobId)
    (scripted : resource.totalSteps = total resource.jobId)
    (newest : archive.Newest resource.jobId state resource.startStep resource.startValue)
    (unsaved : resource.lastSavedStep = -1) : Attempt archive resource state := by
  have began : 0 ≤ resource.startStep ∧ (0 < resource.totalSteps → resource.startStep ≤ resource.totalSteps) ∧
      resource.startValue = sumOfSteps resource.startStep := by
    rcases newest with ⟨_, step, value⟩ | ⟨has, _, value⟩
    · rw [step, value]
      exact ⟨le_rfl, le_of_lt, (sumOfSteps_of_nonpos le_rfl).symm⟩
    · obtain ⟨positive, most⟩ := archive.bounded kept its has
      exact ⟨positive.le, fun _ => scripted ▸ most, value⟩
  refine ⟨its, scripted, began.1, began.2.1, began.2.2, fun work late => ?_⟩
  omega

/-- A launch that comes to an allocation began an attempt at the newest checkpoint. -/
theorem keeps_launch {job : Job} (stored : backend.checkpoints = some checkpoints)
    (progressing : Progressing archive base simulation) (its : named job.jobId) :
    (backend.launch job).Course (Progressing archive base) (fun allocation after =>
      ∃ resource, after.fake.resources.find allocation.handle = some resource ∧ resource.jobId = job.jobId ∧
        archive.Newest job.jobId simulation.rest resource.startStep resource.startValue)
      (fun _ => True) simulation := by
  unfold FakeBackend.launch
  dsimp only
  split
  · exact ⟨progressing, trivial⟩
  · have counted : (backend.freeSlots job.gpuType).Course (Progressing archive base)
        (fun _ after => after.rest = simulation.rest) (fun _ => True) simulation :=
      (keeps_freeSlots progressing).weaken (fun _ kept => kept) (fun _ _ _ same => same) fun _ _ _ => trivial
    refine counted.bind fun free current progressing same => ?_
    split
    · exact ⟨progressing, trivial⟩
    · refine .read progressing ?_
      split
      · exact ⟨progressing, trivial⟩
      · have restored : (backend.restore job).Course (Progressing archive base)
            (fun begins after => after = current ∧
              archive.Newest job.jobId current.rest begins.1 begins.2) (fun _ => True) current :=
          (keeps_restore stored progressing its).weaken (fun _ kept => kept) (fun _ _ _ both => both)
            fun _ _ _ => trivial
        refine restored.bind fun begins after progressing both => ?_
        obtain ⟨rfl, newest⟩ := both
        obtain ⟨startStep, startValue⟩ := begins
        refine .quietly progressing (.read progressing.read (.quietly progressing.read ?_))
        refine ⟨?_, _, (Table.find_put _ _ _).trans (if_pos rfl), rfl, same ▸ newest⟩
        refine (progressing.read.keep ?_).counted
        exact attempt_newest progressing.kept its (progressing.scripted job.jobId) newest rfl

/-! ### Runs -/

/-- What one call leaves. -/
theorem Progressing.called (stored : backend.checkpoints = some checkpoints)
    (progressing : Progressing archive base simulation) {call : FakeCall}
    (its : ∀ job, call = .launch job → named job.jobId) :
    Progressing archive base (backend.called simulation call) := by
  cases call with
  | launch job => exact (keeps_launch stored progressing (its job rfl)).whole.1
  | poll handle => exact (keeps_poll stored progressing).whole.1
  | interrupt handle => exact (keeps_interrupt stored progressing).whole.1
  | terminate handle reason => exact (keeps_terminate progressing).whole.1
  | fetchLogs handle after => exact (keeps_fetchLogs progressing).whole.1
  | sampleUtilization handle => exact (keeps_sampleUtilization progressing).whole.1

/-- What any calls leave. -/
theorem Progressing.after (stored : backend.checkpoints = some checkpoints)
    (progressing : Progressing archive base simulation) {calls : List FakeCall}
    (its : ∀ job, .launch job ∈ calls → named job.jobId) :
    Progressing archive base (backend.after simulation calls) := by
  induction calls generalizing simulation with
  | nil => exact progressing
  | cons call calls inductionHypothesis =>
      refine inductionHypothesis (progressing.called stored fun job same => its job ?_) fun job member =>
        its job (List.mem_cons_of_mem _ member)
      exact same ▸ List.mem_cons_self

/-- What is there now will still be there. -/
theorem Progressing.here (progressing : Progressing archive base simulation) :
    Progressing archive simulation.rest simulation :=
  { progressing with grown := fun _ _ _ has => has }

/-- When a poll has reported that a job completed, its last step is saved from then on. -/
theorem Progressing.completed (stored : backend.checkpoints = some checkpoints)
    (progressing : Progressing archive base simulation) {before later : List FakeCall} {handle : String}
    (its : ∀ job, .launch job ∈ before ++ .poll handle :: later → named job.jobId)
    (found : (backend.after simulation before).fake.resources.find handle = some resource)
    {observation : Observation}
    (came : ((backend.poll handle).whole (backend.after simulation before)).1 = .ok observation)
    (completed : observation.status = .completed) (work : 0 < total resource.jobId) :
    archive.has resource.jobId (total resource.jobId)
      (backend.after simulation (before ++ .poll handle :: later)).rest := by
  have earlier : ∀ job, .launch job ∈ before → named job.jobId := fun job member =>
    its job (List.mem_append_left _ member)
  have further : ∀ job, .launch job ∈ later → named job.jobId := fun job member =>
    its job (List.mem_append_right _ (List.mem_cons_of_mem _ member))
  have middle := progressing.after stored earlier
  have attempt := middle.attempts handle resource found
  have saved := (keeps_poll stored middle).whole.2.1 observation came completed resource found
  rw [attempt.total] at saved
  have polled : Progressing archive base (backend.called (backend.after simulation before) (.poll handle)) :=
    middle.called stored fun job same => by cases same
  have ends := polled.here.after stored further
  have same : backend.after simulation (before ++ .poll handle :: later) =
      backend.after (backend.called (backend.after simulation before) (.poll handle)) later := by
    unfold FakeBackend.after
    rw [List.foldl_append, List.foldl_cons]
  rw [same]
  exact ends.grown _ _ attempt.named (saved work)

end Attempts

section Stores

variable {Body Text : Type} {store : CheckpointStore} {codec : ProgressCodec Body Text}
  {total : JobId → Int} {files : Files Body} {jobId : JobId}

/-- The newest checkpoint of a kept store, as it is listed. -/
theorem newest_listed {text : StoreError → String} {scratch : String} (kept : store.Kept codec total files)
    (free : '/' ∉ jobId.toList) {step value : Int}
    (newest : (store.archive codec text scratch total).Newest jobId files step value) :
    store.Newest codec jobId files step value := by
  rcases newest with ⟨empty, first, sum⟩ | ⟨has, most, rfl⟩
  · refine .inl ⟨List.eq_nil_iff_forall_not_mem.mpr fun entry member => ?_, first, sum⟩
    obtain ⟨step, has, _⟩ := kept.carries free member
    exact empty step has
  · obtain ⟨entry, member, carries⟩ := kept.found_has free has
    refine .inr ⟨entry, member, carries, fun other listed less sum carried => ?_⟩
    obtain ⟨step, has, _, also⟩ := kept.carries free listed
    obtain ⟨ref, restored, reads, rfl, _⟩ := carried
    obtain ⟨again, restored, alike, rfl, _⟩ := also
    cases reads.symm.trans alike
    exact most _ has

/-- A job of which the last step was saved ended on the sum of all; one without steps, on nothing. -/
theorem finalValue_eq (kept : store.Kept codec total files) (free : '/' ∉ jobId.toList)
    (last : 0 < total jobId → store.Has jobId (total jobId) files) :
    store.finalValue codec jobId files =
      .ok (if 0 < total jobId then some (sumOfSteps (total jobId)) else none) := by
  unfold CheckpointStore.finalValue
  rcases kept.newestState free with ⟨empty, none⟩ | ⟨top, has, most, some⟩
  · rw [none, if_neg fun work => empty _ (last work)]
  · obtain ⟨positive, limit⟩ := kept.bounded free has
    have work := positive.trans_le limit
    have same : top = total jobId := le_antisymm limit (most _ (last work))
    rw [some codec.valueOf _ (codec.valueOf_saved _ _), if_pos work, same]

end Stores

/-- From a fake without machines and a store with nothing in it, of any script and at any clock, after any
calls: every checkpoint carries the sum of the steps before its own; a launch begins at the step and the
value of the newest one; a poll does not fail; and when one has reported that a job completed, the job's
final value is the sum of all its steps from then on, or nothing, when it has none. -/
theorem resumes_exactly {Body Text : Type} (store : CheckpointStore) (codec : ProgressCodec Body Text)
    (text : StoreError → String) (scratch : String) (backend : FakeBackend (Files Body))
    (stored : backend.checkpoints = some (store.progress codec text scratch))
    (start : Simulation (Files Body)) (fresh : start.fake.resources = .empty)
    (nothing : ∀ path, within store.root path = true → start.rest.find path = none)
    (calls : List FakeCall) (named : ∀ job, .launch job ∈ calls → '/' ∉ job.jobId.toList) :
    let now := backend.after start calls
    (∀ jobId, '/' ∉ jobId.toList → ∀ entry ∈ store.found jobId now.rest,
        ∃ step, store.Carries codec jobId now.rest entry step (sumOfSteps step)) ∧
      (∀ job allocation, '/' ∉ job.jobId.toList → ((backend.launch job).whole now).1 = .ok allocation →
        ∃ resource, ((backend.launch job).whole now).2.fake.resources.find allocation.handle = some resource ∧
          resource.jobId = job.jobId ∧
          store.Newest codec job.jobId now.rest resource.startStep resource.startValue) ∧
      (∀ handle, ∃ observation, ((backend.poll handle).whole now).1 = .ok observation) ∧
      ∀ before handle later resource observation, calls = before ++ .poll handle :: later →
        (backend.after start before).fake.resources.find handle = some resource →
        ((backend.poll handle).whole (backend.after start before)).1 = .ok observation →
        observation.status = .completed →
          store.finalValue codec resource.jobId now.rest =
            .ok (if 0 < start.totalOf resource.jobId then some (sumOfSteps (start.totalOf resource.jobId))
              else none) := by
  let archive := store.archive codec text scratch start.totalOf
  have begun : Progressing archive start.rest start := by
    refine ⟨fun _ => rfl, CheckpointStore.kept_nothing nothing, fun handle resource found => ?_,
      fun _ _ _ has => has⟩
    rw [fresh] at found
    cases found
  have progressing := begun.after stored named
  refine ⟨fun jobId free entry member => ?_, fun job allocation free came => ?_, fun handle => ?_, ?_⟩
  · obtain ⟨step, _, _, carries⟩ := progressing.kept.carries free member
    exact ⟨step, carries⟩
  · obtain ⟨resource, found, its, newest⟩ := (keeps_launch stored progressing free).whole.2.1 allocation came
    exact ⟨resource, found, its, newest_listed progressing.kept free newest⟩
  · obtain ⟨_, _, calm⟩ := (keeps_poll stored progressing).whole
    cases came : ((backend.poll handle).whole (backend.after start calls)).1 with
    | ok observation => exact ⟨observation, rfl⟩
    | error detail => exact (calm detail came).elim
  · rintro before handle later resource observation rfl found came completed
    have earlier : ∀ job, .launch job ∈ before → '/' ∉ job.jobId.toList := fun job member =>
      named job (List.mem_append_left _ member)
    have free : '/' ∉ resource.jobId.toList := ((begun.after stored earlier).attempts handle resource found).named
    exact finalValue_eq progressing.kept free (begun.completed stored named found came completed)

/-! ### A job of ten steps, and one of none -/

namespace Retry

/-- Files that hold JSON. -/
def codec : ProgressCodec Json Json where
  toStamps := Sheet.stamps
  size
    | .object [("step", .int step), ("value", .int value)] =>
        (s!"\x7b\"step\": {step}, \"value\": {value}\x7d").length
    | _ => 0
  encode json := json
  decode := some
  dumps json := json
  loads := some
  intOf _ := none
  decode_encode _ := rfl
  loads_dumps _ _ _ _ := rfl
  loads_progress _ _ := rfl

def text : StoreError → String := fun _ => "the store failed"

/-- A fake whose clock moves on by ten minutes each time it is read. -/
def backend : FakeBackend (Files Json) where
  name := "fake"
  clock := fun reading => reading * 600000000
  tier := "spot"
  currency := .usd
  capacity := [("t4", 1)]
  startupSeconds := 60
  statePath := none
  checkpoints := some (CheckpointStore.disk.progress codec text "/tmp/state")

/-- A job that is scripted, and one that is not. -/
def start : Simulation (Files Json) where
  fake :=
    { resources := .empty
      counter := 0
      plans := [("job", { runHours := some 1, totalSteps := 10, checkpointEvery := 3 })]
      utilization := []
      asked := 0 }
  rest := .empty

def job (jobId : JobId) : Job := NewJob.row ⟨jobId, "ann", "train", "t4", 1, .usd, 1, none, "real"⟩ .queued 0

/-- The job is interrupted on the way from its sixth step to its ninth, and launched again. -/
def calls : List FakeCall :=
  [.launch (job "job"), .poll "fake-0001", .interrupt "fake-0001", .poll "fake-0001", .launch (job "job"),
    .poll "fake-0002", .poll "fake-0002", .poll "fake-0002"]

example : calls.length = 8 := by decide +kernel

end Retry

/-- The second attempt ends on the sum of ten steps. -/
theorem resumes_exactly_retried :
    CheckpointStore.disk.finalValue Retry.codec "job"
      (Retry.backend.after Retry.start (Retry.calls ++ [.poll "fake-0002"])).rest = .ok (some 45) := by
  have plain : ∀ call ∈ Retry.calls ++ [.poll "fake-0002"], ∀ job, call = .launch job →
      '/' ∉ job.jobId.toList := by
    intro call member job same
    subst same
    have its : job = Retry.job "job" := by simpa [Retry.calls] using member
    rw [its]
    decide +kernel
  have machine : ((Retry.backend.after Retry.start Retry.calls).fake.resources.find "fake-0002").map
      FakeResource.jobId = some "job" := by decide +kernel
  obtain ⟨resource, found, its⟩ := Option.map_eq_some_iff.mp machine
  have told : ((Retry.backend.poll "fake-0002").whole
      (Retry.backend.after Retry.start Retry.calls)).1.toOption.map Observation.status = some .completed := by
    decide +kernel
  obtain ⟨observation, heard, completed⟩ := Option.map_eq_some_iff.mp told
  have came : ((Retry.backend.poll "fake-0002").whole
      (Retry.backend.after Retry.start Retry.calls)).1 = .ok observation := by
    revert heard
    cases ((Retry.backend.poll "fake-0002").whole (Retry.backend.after Retry.start Retry.calls)).1 with
    | ok other => exact fun same => congrArg _ (Option.some.inj same)
    | error detail => nofun
  have ended := (resumes_exactly CheckpointStore.disk Retry.codec Retry.text "/tmp/state" Retry.backend rfl
    Retry.start rfl (fun _ _ => rfl) (Retry.calls ++ [.poll "fake-0002"])
    (fun job member => plain _ member job rfl)).2.2.2 Retry.calls "fake-0002" [] resource observation rfl found
      came completed
  rw [its] at ended
  exact ended

/-- A job that no steps are scripted for completes without a value, and the sum of none of them is one. -/
theorem completes_without_value :
    let calls := [.launch (Retry.job "other")] ++ List.replicate 7 (FakeCall.poll "fake-0001")
    let now := Retry.backend.after Retry.start calls
    Retry.start.totalOf "other" = 0 ∧
      ((Retry.backend.poll "fake-0001").whole now).1.toOption.map Observation.status = some .completed ∧
      CheckpointStore.disk.finalValue Retry.codec "other"
        ((Retry.backend.poll "fake-0001").whole now).2.rest = .ok none ∧
      sumOfSteps (Retry.start.totalOf "other") = 0 := by
  refine ⟨by decide +kernel, by decide +kernel, by decide +kernel, by decide +kernel⟩

end GpuBroker.Broker
