/-
This file is the dispatch protocol: who may start an attempt, how often, and
what a redelivered event hands out.

A start is granted against the rows as they are when it is asked for: the
attempt is open, is its job's current one and belongs to the caller, and the
digest under the verified code is the one of the stored spec. The grant marks
the attempt for good, so there is no second. The spec columns of a job are
written once and the lease of an open attempt stays, so an event that is
redelivered while its job is still dispatched hands out the same spec again.

The grant goes by the digest alone. What else the request says of the spec is
not read, so a request whose spec does not hash to its own digest is granted
too.
-/
import GpuBroker.ControlPlane.Deeds
import GpuBroker.ControlPlane.JobCap

namespace GpuBroker.ControlPlane

open Library Library.Transaction

/-! ### What stays over a run -/

theorem run_attempt (service : Service) (calls : List Call) {db : Database}
    (balanced : Balanced db.toBooks) {id : AttemptID} {row : Attempt}
    (found : db.attempts.find id = some row) :
    ∃ later, (run service calls db).attempts.find id = some later ∧ Lasting row later := by
  induction calls generalizing db row with
  | nil => exact ⟨row, found, Lasting.refl row⟩
  | cons call rest inductionHypothesis =>
      obtain ⟨middle, hasMiddle, first⟩ := (call.deed service balanced).attempt found
      obtain ⟨later, hasLater, second⟩ :=
        inductionHypothesis (balanced.change (call.perform_changes service balanced)) hasMiddle
      exact ⟨later, hasLater, first.trans second⟩

theorem run_job (service : Service) (calls : List Call) {db : Database}
    (balanced : Balanced db.toBooks) {id : JobID} {job : Job}
    (found : db.jobs.find id = some job) :
    ∃ moved, (run service calls db).jobs.find id = some (Job.saved job moved) := by
  induction calls generalizing db job with
  | nil => exact ⟨job, found⟩
  | cons call rest inductionHypothesis =>
      obtain ⟨_, hasMiddle, ⟨moved, rfl⟩, _⟩ := (call.deed service balanced).job found
      obtain ⟨final, hasFinal⟩ :=
        inductionHypothesis (balanced.change (call.perform_changes service balanced)) hasMiddle
      exact ⟨final, hasFinal⟩

/-- The lease of an attempt is there as long as the attempt is open. -/
theorem run_lease (service : Service) (calls : List Call) {db : Database}
    (balanced : Balanced db.toBooks) {id : AttemptID} {row later : Attempt} {lease : Lease}
    (found : db.attempts.find id = some row) (held : db.leases.find id = some lease)
    (last : (run service calls db).attempts.find id = some later) (unclosed : later.outcome = none) :
    ∃ final, (run service calls db).leases.find id = some final := by
  induction calls generalizing db row lease with
  | nil => exact ⟨lease, held⟩
  | cons call rest inductionHypothesis =>
      have deed := call.deed service balanced
      have after := balanced.change (call.perform_changes service balanced)
      obtain ⟨middle, hasMiddle, _⟩ := deed.attempt found
      obtain ⟨final, hasFinal, lasting⟩ := run_attempt service rest after hasMiddle
      cases last.symm.trans hasFinal
      have stillOpen : middle.outcome = none := by
        by_contra ended
        rw [lasting.ended ended] at unclosed
        exact ended unclosed
      obtain ⟨_, hasLease, _⟩ := deed.lease held hasMiddle stillOpen
      exact inductionHypothesis after hasMiddle hasLease last

/-! ### Dispatches -/

/-- A dispatch that was handed out is made of the stored rows, and its attempt has a lease. -/
theorem handleDispatch_issued {service : Service} {principal : Principal} {event : OutboxEvent}
    {now appliedAt : Time} {db next : Db} {issued : Service.Dispatch}
    (finished : service.handleDispatch principal event now appliedAt db =
      .ok (some issued, next)) :
    ∃ job attempt lease, db.jobs.find event.job = some job ∧
      db.attempts.find event.attempt = some attempt ∧ attempt.worker = principal.worker ∧
      (∃ held, next.leases.find event.attempt = some held) ∧
      issued = service.dispatchOf principal job attempt lease := by
  have deed := handleDispatch_deed finished
  unfold Service.handleDispatch at finished
  obtain ⟨job, _, locks, finished⟩ := bind_ok.mp finished
  obtain ⟨found, rfl⟩ := Tx.lockJob_spec locks
  obtain ⟨attempt, _, reads, finished⟩ := bind_ok.mp finished
  obtain ⟨attemptFound, rfl⟩ := Tx.getAttempt_spec reads
  obtain ⟨_, marked, marks, finished⟩ := bind_ok.mp finished
  have keptLeases := Tx.markDelivered_leases _ _ _ _ _ marks
  have key : attempt.id = event.attempt := Table.find_key attemptFound
  split at finished
  · cases pure_ok.mp finished
  next valid =>
  have own : attempt.worker = principal.worker := by
    by_contra other
    exact valid (Or.inl other)
  cases state : job.state <;> simp only [state] at finished
  case reserved =>
    obtain ⟨_, leased, puts, finished⟩ := bind_ok.mp finished
    obtain ⟨moved, _, applies, finished⟩ := bind_ok.mp finished
    cases pure_ok.mp finished
    refine ⟨job, attempt, _, found, attemptFound, own, ?_, rfl⟩
    rw [apply_leases _ _ _ _ _ _ _ _ _ applies, Tx.putLease_leases puts, keptLeases, ← key]
    split
    · exact ⟨_, rfl⟩
    · next foreign =>
      -- the lease is put unless another worker's is in its place
      cases held : db.leases.find attempt.id with
      | none => exact absurd ⟨rfl, by rw [held]; rfl⟩ foreign
      | some lease => exact ⟨lease, rfl⟩
  case dispatched =>
    obtain ⟨found_, _, readLease, finished⟩ := bind_ok.mp finished
    obtain ⟨present, rfl⟩ := Tx.getLease_spec readLease
    obtain ⟨lease, _, needs, finished⟩ := bind_ok.mp finished
    obtain ⟨isLease, rfl⟩ := need_ok.mp needs
    cases pure_ok.mp finished
    refine ⟨job, attempt, lease, found, attemptFound, own, ⟨lease, ?_⟩, rfl⟩
    rw [← key, ← present]
    exact isLease
  all_goals cases pure_ok.mp finished

/-- An event whose attempt is open, current and leased, of a job that is dispatched, is handled. -/
theorem handleDispatch_redelivered {service : Service} {principal : Principal}
    {event : OutboxEvent} {now appliedAt : Time} {db : Db} {job : Job} {attempt : Attempt}
    {lease : Lease} (found : db.jobs.find event.job = some job)
    (attemptFound : db.attempts.find event.attempt = some attempt)
    (own : attempt.worker = principal.worker) (unclosed : attempt.outcome = none)
    (current : job.attempt = attempt.number) (dispatched : job.state = .dispatched)
    (held : db.leases.find event.attempt = some lease) :
    ∃ next, service.handleDispatch principal event now appliedAt db =
      .ok (some (service.dispatchOf principal job attempt lease), next) := by
  have key : attempt.id = event.attempt := Table.find_key attemptFound
  have fails : ¬ (attempt.worker ≠ principal.worker ∨ attempt.outcome.isSome ∨
      job.attempt ≠ attempt.number) := by
    simp [own, unclosed, current]
  obtain ⟨marked, marks⟩ : ∃ marked, Tx.markDelivered event.id now db = .ok ((), marked) :=
    ⟨_, rfl⟩
  have leased : marked.leases.find attempt.id = some lease := by
    rw [Tx.markDelivered_leases _ _ _ _ _ marks, key]
    exact held
  refine ⟨marked, ?_⟩
  unfold Service.handleDispatch
  refine bind_ok.mpr ⟨job, db, bind_ok.mpr ⟨db, db, rfl, need_ok.mpr ⟨found, rfl⟩⟩, ?_⟩
  refine bind_ok.mpr
    ⟨attempt, db, bind_ok.mpr ⟨db, db, rfl, need_ok.mpr ⟨attemptFound, rfl⟩⟩, ?_⟩
  refine bind_ok.mpr ⟨(), marked, marks, ?_⟩
  rw [if_neg fails, dispatched]
  refine bind_ok.mpr ⟨some lease, marked, bind_ok.mpr ⟨marked, marked, rfl, ?_⟩, ?_⟩
  · rw [leased]
    rfl
  · exact bind_ok.mpr ⟨lease, marked, rfl, rfl⟩

/-! ### The protocol -/

/-- Specs that hash to the same digest are the same. -/
def CollisionFree (service : Service) : Prop :=
  ∀ image command gpus seconds image' command' gpus' seconds',
    service.specDigest image command gpus seconds =
        service.specDigest image' command' gpus' seconds' →
      image = image' ∧ command = command' ∧ gpus = gpus' ∧ seconds = seconds'

/-- The spec a dispatch carries hashes to the digest it carries, as its worker checks. -/
def Service.Dispatch.consistent (service : Service) (dispatch : Service.Dispatch) : Prop :=
  service.specDigest dispatch.image dispatch.command dispatch.gpus dispatch.maxRuntimeS =
    dispatch.specDigest

/-- What a start was granted against: the attempt on its own worker, open and current, its job
dispatched, and the stored spec's digest under a code that verifies. -/
structure Granted (service : Service) (principal : Principal) (dispatch : Service.Dispatch)
    (db : Db) (job : Job) (attempt : Attempt) : Prop
    extends Vouched service principal dispatch db job attempt where
  dispatched : job.state = .dispatched
  current : job.attempt = attempt.number
  spec : CollisionFree service → dispatch.consistent service →
    dispatch.image = job.image ∧ dispatch.command = job.command ∧
      dispatch.gpus = job.requirements.gpus ∧ dispatch.maxRuntimeS = job.maxRuntime / second

theorem ack_granted {service : Service} {principal : Principal} {dispatch : Service.Dispatch}
    {now appliedAt : Time} {db next : Db} (sound : Sound db.toBooks)
    (finished : service.ack principal dispatch now appliedAt db = .ok (.run, next)) :
    ∃ job attempt, Granted service principal dispatch db job attempt := by
  obtain ⟨job, attempt, _, vouched, _, _, _, ⟨impossible, _⟩ | ⟨_, state, _⟩⟩ := ack_spec finished
  · cases impossible
  · refine ⟨job, attempt, { vouched with dispatched := state, current := ?_, spec := ?_ }⟩
    · obtain ⟨_, held, hasHeld, ofAttempt, unreleased, ofJob⟩ :=
        sound.open_reserved vouched.attempt_stored vouched.unclosed
      have hasJob : db.jobs.find held.job = some job := by
        rw [ofJob, vouched.ofJob]
        exact vouched.job_stored
      exact (sound.current _ _ hasHeld unreleased job attempt hasJob
        (ofAttempt ▸ vouched.attempt_stored)).2.symm
    · intro free consistent
      exact free _ _ _ _ _ _ _ _ (consistent.trans vouched.digest.symm)

/-- An acknowledgement that went through marked its attempt. -/
theorem ack_marks {service : Service} {principal : Principal} {dispatch : Service.Dispatch}
    {now appliedAt : Time} {db next : Db} {result : Service.AckResult}
    (finished : service.ack principal dispatch now appliedAt db = .ok (result, next)) :
    ∃ row, next.attempts.find dispatch.attempt = some row ∧ row.ackedAt = some now := by
  obtain ⟨job, attempt, marked, vouched, jobs, _, attempts, either⟩ := ack_spec finished
  have kept : next.attempts = marked.attempts := by
    rcases either with ⟨_, _, rfl⟩ | ⟨_, _, renewed, _, moved, renews, applies⟩
    · rfl
    · have books := Tx.renewLeases_quiet _ _ _ _ _ _ _ renews
      have stored : renewed.jobs.find (job.started now).id = some job := by
        rw [books, jobs]
        exact vouched.job_stored
      rw [(apply_sets applies stored).2, books]
  refine ⟨{ attempt with ackedAt := some now }, ?_, rfl⟩
  rw [kept, ← show attempt.id = dispatch.attempt from Table.find_key vouched.attemptFound]
  exact attempts.find_self

/-- An acknowledgement marks the attempt for good, so there is no other of the same attempt. -/
theorem ack_once (service : Service) {principal other : Principal}
    {dispatch again : Service.Dispatch} {now appliedAt later laterApplied : Time} {db : Database}
    {next final : Db} {result second : Service.AckResult} (balanced : Balanced db.toBooks)
    (more : List Call)
    (granted : service.ack principal dispatch now appliedAt db.toDb = .ok (result, next))
    (same : again.attempt = dispatch.attempt) :
    service.ack other again later laterApplied
      (run service (.request (.ack principal dispatch now appliedAt) :: more) db).toDb ≠
        .ok (second, final) := by
  intro repeated
  obtain ⟨row, found, acked⟩ := ack_marks granted
  have performed : (Call.request (.ack principal dispatch now appliedAt)).perform service db =
      { db with toDb := next } := perform_request (ignore_of_ok granted)
  have after := balanced.change
    ((Call.request (.ack principal dispatch now appliedAt)).perform_changes service balanced)
  rw [performed] at after
  obtain ⟨last, hasLast, lasting⟩ :=
    @run_attempt service more { db with toDb := next } after _ _ found
  rw [run, performed] at repeated
  obtain ⟨_, attempt, _, vouched, _⟩ := ack_spec repeated
  rw [← same] at hasLast
  cases hasLast.symm.trans vouched.attemptFound
  have unacked := vouched.unacked
  rw [lasting.acked (by simp [acked]), acked] at unacked
  cases unacked

/-- What a dispatch says of the spec, apart from the lease it was issued under. -/
def Service.Dispatch.spec (dispatch : Service.Dispatch) :
    String × List String × Int × String × String × Int × String :=
  (dispatch.image, dispatch.command, dispatch.gpus, dispatch.gpuModel, dispatch.runtime,
    dispatch.maxRuntimeS, dispatch.specDigest)

/-- In every state a run reaches: a start is granted only to the attempt's own worker, only while
the job is dispatched for that attempt, and only for the digest of the stored spec under a code that
verifies; no acknowledgement of the attempt is granted afterwards; and an event that handed out a
dispatch hands out the same attempt and spec again in every later state in which its attempt is open
and its job is dispatched for it. -/
theorem dispatch_protocol (service : Service) (calls more : List Call) :
    let db := run service calls .initial
    (∀ principal dispatch now appliedAt next,
      service.ack principal dispatch now appliedAt db.toDb = .ok (.run, next) →
        (∃ job attempt, Granted service principal dispatch db.toDb job attempt) ∧
          ∀ other again later laterApplied final, again.attempt = dispatch.attempt →
            service.ack other again later laterApplied
              (run service (.request (.ack principal dispatch now appliedAt) :: more) db).toDb ≠
                .ok (.run, final)) ∧
      ∀ principal event now appliedAt issued next,
        service.handleDispatch principal event now appliedAt db.toDb = .ok (some issued, next) →
          let last := run service
            (.request (.handleDispatch principal event now appliedAt) :: more) db
          ∀ job attempt, last.jobs.find event.job = some job →
            last.attempts.find event.attempt = some attempt → attempt.outcome = none →
              job.state = .dispatched → job.attempt = attempt.number →
                ∀ later laterApplied, ∃ again final,
                  service.handleDispatch principal event later laterApplied last.toDb =
                      .ok (some again, final) ∧
                    again.attempt = issued.attempt ∧ again.job = issued.job ∧
                      again.spec = issued.spec := by
  intro db
  have balanced : Balanced db.toBooks := run_initial service calls
  constructor
  · intro principal dispatch now appliedAt next granted
    exact ⟨ack_granted balanced.sound granted,
      fun other again later laterApplied final same => ack_once service balanced more granted same⟩
  · intro principal event now appliedAt issued next handed last job attempt found attemptFound
      unclosed dispatched current later laterApplied
    obtain ⟨stored, row, _, hasStored, hasRow, own, ⟨held, hasLease⟩, rfl⟩ :=
      handleDispatch_issued handed
    have first : (Call.request (.handleDispatch principal event now appliedAt)).perform service db =
        { db with toDb := next } := perform_request (ignore_of_ok handed)
    have performed : last = run service more { db with toDb := next } :=
      congrArg (run service more) first
    have deed := handleDispatch_deed handed
    have after := balanced.change ((Call.request
      (.handleDispatch principal event now appliedAt)).perform_changes service balanced)
    rw [first] at after
    obtain ⟨_, hasMiddle, lasting⟩ := deed.attempt hasRow
    obtain ⟨_, hasMiddleJob, ⟨moved, rfl⟩, _⟩ := deed.job hasStored
    rw [performed] at found attemptFound
    obtain ⟨final, hasFinal, lastingOn⟩ :=
      @run_attempt service more { db with toDb := next } after _ _ hasMiddle
    obtain ⟨movedOn, hasJob⟩ := @run_job service more { db with toDb := next } after _ _ hasMiddleJob
    cases hasFinal.symm.trans attemptFound
    cases hasJob.symm.trans found
    obtain ⟨lease, leased⟩ :=
      @run_lease service more { db with toDb := next } after _ _ _ _ hasMiddle hasLease hasFinal
        unclosed
    have throughout := lasting.trans lastingOn
    obtain ⟨done, handled⟩ := handleDispatch_redelivered found attemptFound
      (throughout.worker.trans own) unclosed current dispatched leased
    rw [performed]
    refine ⟨_, done, handled, ?_, rfl, rfl⟩
    show attempt.id = row.id
    rw [Table.find_key attemptFound, Table.find_key hasRow]

/-! ### A request whose spec is not the stored one -/

/-- A text as a self-delimiting code: every character is announced. -/
def delimited : List Char → List Char
  | [] => [';']
  | char :: rest => '.' :: char :: delimited rest

theorem delimited_append {one two : List Char} :
    ∀ {text other : List Char}, delimited text ++ one = delimited other ++ two →
      text = other ∧ one = two := by
  intro text
  induction text with
  | nil =>
      intro other same
      cases other with
      | nil => exact ⟨rfl, by simpa [delimited] using same⟩
      | cons char rest => simp [delimited] at same
  | cons first rest inductionHypothesis =>
      intro other same
      cases other with
      | nil => simp [delimited] at same
      | cons char others =>
          simp only [delimited, List.cons_append, List.cons.injEq, true_and] at same
          obtain ⟨rfl, tails⟩ := same
          obtain ⟨rfl, equal⟩ := inductionHypothesis tails
          exact ⟨rfl, equal⟩

/-- The texts of a list, each announced. -/
def delimitedAll : List String → List Char
  | [] => [';']
  | text :: rest => '.' :: (delimited text.toList ++ delimitedAll rest)

theorem delimitedAll_append {one two : List Char} :
    ∀ {texts others : List String}, delimitedAll texts ++ one = delimitedAll others ++ two →
      texts = others ∧ one = two := by
  intro texts
  induction texts with
  | nil =>
      intro others same
      cases others with
      | nil => exact ⟨rfl, by simpa [delimitedAll] using same⟩
      | cons text rest => simp [delimitedAll] at same
  | cons first rest inductionHypothesis =>
      intro others same
      cases others with
      | nil => simp [delimitedAll] at same
      | cons text others =>
          simp only [delimitedAll, List.cons_append, List.cons.injEq, true_and,
            List.append_assoc] at same
          obtain ⟨equal, tails⟩ := delimited_append same
          obtain ⟨rfl, rests⟩ := inductionHypothesis tails
          exact ⟨by rw [String.toList_inj.mp equal], rests⟩

/-- The sign and the decimal digits of a number. -/
def signed : Int → List Char
  | .ofNat number => '+' :: Nat.toDigits 10 number
  | .negSucc number => '-' :: Nat.toDigits 10 number

theorem digits_injective {one two : Nat} (same : Nat.toDigits 10 one = Nat.toDigits 10 two) :
    one = two := by
  have first := @Nat.ofDigitChars_toDigits 10 one (by decide) (by decide)
  rw [same, Nat.ofDigitChars_toDigits (by decide) (by decide)] at first
  exact first.symm

theorem signed_injective {one two : Int} (same : signed one = signed two) : one = two := by
  cases one <;> cases two <;> simp only [signed, List.cons.injEq] at same
  · exact congrArg _ (digits_injective same.2)
  · exact absurd same.1 (by decide)
  · exact absurd same.1 (by decide)
  · exact congrArg _ (digits_injective same.2)

/-- The plain service with a digest that tells all specs apart. -/
def codedService : Service :=
  { plainService with
    specDigest := fun image command gpus seconds => String.ofList
      (delimited image.toList ++
        (delimitedAll command ++ (delimited (signed gpus) ++ delimited (signed seconds)))) }

theorem codedService_collisionFree : CollisionFree codedService := by
  intro image command gpus seconds image' command' gpus' seconds' same
  obtain ⟨sameImage, rest⟩ := delimited_append (String.ofList_injective same)
  obtain ⟨sameCommand, rest⟩ := delimitedAll_append rest
  obtain ⟨sameGPUs, rest⟩ := delimited_append rest
  obtain ⟨sameSeconds, _⟩ := @delimited_append [] [] _ _ (by simpa using rest)
  exact ⟨String.toList_inj.mp sameImage, sameCommand, signed_injective sameGPUs,
    signed_injective sameSeconds⟩

/-- The worker of the run. -/
def retriedWorker : Principal where
  kind := .worker
  user := "user"
  tenant := "tenant"
  role := .member
  worker := "worker"
  pool := ""

/-- The dispatch of the first attempt with an image put in its place. -/
def dispatchWith (image : String) : Service.Dispatch where
  attempt := "first"
  job := "job"
  worker := "worker"
  image := image
  command := ["train"]
  gpus := 1
  gpuModel := ""
  runtime := ""
  maxRuntimeS := 3600
  leaseExpires := 45 * second
  specDigest := codedService.specDigest "trainer" ["train"] 1 3600
  mac := codedService.sign "first" "worker" (45 * second)
    (codedService.specDigest "trainer" ["train"] 1 3600)

/-- The state in which the first attempt of the run has been claimed. -/
def claimedState : Database := run codedService ((retriedRun 0).take 8) .initial

theorem claimedState_runs (image : String) (runs : (codedService.ack retriedWorker
    (dispatchWith image) 0 0 claimedState.toDb).toOption.map Prod.fst = some .run) :
    ∃ next, codedService.ack retriedWorker (dispatchWith image) 0 0 claimedState.toDb =
      .ok (.run, next) := by
  obtain ⟨⟨result, next⟩, finished, same⟩ := Option.map_eq_some_iff.mp runs
  refine ⟨next, ?_⟩
  rw [← show result = .run from same]
  exact ok_of_toOption finished

/-- The dispatch as it was issued is told to run, for the stored image. -/
theorem dispatch_protocol_started :
    ∃ job attempt, Granted codedService retriedWorker (dispatchWith "trainer") claimedState.toDb job
      attempt ∧ (dispatchWith "trainer").image = job.image := by
  obtain ⟨next, finished⟩ := claimedState_runs "trainer" (by decide +kernel)
  obtain ⟨job, attempt, granted⟩ := ((dispatch_protocol codedService ((retriedRun 0).take 8) []).1
    _ _ _ _ next finished).1
  exact ⟨job, attempt, granted, (granted.spec codedService_collisionFree rfl).1⟩

/-- With a digest free of collisions, a request that carries another image under the digest of the
stored spec is told to run. -/
theorem altered_image_runs :
    CollisionFree codedService ∧
      ∃ job next, claimedState.jobs.find "job" = some job ∧
        codedService.ack retriedWorker (dispatchWith "other") 0 0 claimedState.toDb =
          .ok (.run, next) ∧
        (dispatchWith "other").image ≠ job.image := by
  have stored : (claimedState.jobs.find "job").any (fun job => job.image = "trainer") = true := by
    decide +kernel
  obtain ⟨next, finished⟩ := claimedState_runs "other" (by decide +kernel)
  obtain ⟨job, found, image⟩ := (Option.any_eq_true _ _).mp stored
  refine ⟨codedService_collisionFree, job, next, found, finished, ?_⟩
  rw [of_decide_eq_true image]
  decide

end GpuBroker.ControlPlane
