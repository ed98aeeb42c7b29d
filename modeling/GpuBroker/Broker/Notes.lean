/-
This file is what the broker notes down about a job, under the contract: lines
of its log, samples of its GPU and what its owner was told.

None of it touches the money or the state of a job. Storing output moves the
job's read cursor and so replaces the copy it was drained for; everything else
leaves every copy as good as before.
-/
import GpuBroker.Broker.Accounts

namespace GpuBroker.Broker

open Library

variable {γ : Type} {setting : Setting γ} {world next : World γ}

theorem Touch.Ours.streams {columns : Touch} (ours : columns.Ours) :
    columns.lines.all (fun line => line.1 ∈ logStreams) = true := by
  refine List.all_eq_true.mpr fun line member => decide_eq_true ?_
  cases columns with
  | output after polled kept => exact ours.elim
  | note kept =>
      rw [ours line member]
      decide
  | pinTier | cancelRequest =>
      rw [List.mem_singleton.mp member]
      exact (by decide : "broker" ∈ logStreams)
  | attempt | preemption | checkpoint => cases member

/-- A note is committed when its job is there and a log takes its lines. -/
theorem beside_commits {write : Write} {error : BrokerError} (beside : write.beside)
    (sound : Sound world write)
    (taken : ∀ job columns now, write = .touch job columns now →
      columns.lines.all (fun line => line.1 ∈ logStreams) = true) : write.apply world ≠ .error error := by
  intro failed
  cases write with
  | touch job columns now =>
      obtain ⟨⟨row, found⟩, _⟩ := sound
      simp only [Write.apply, Write.onDb, Db.touchJob, found, taken _ _ _ rfl, Option.isSome_some,
        Bool.and_self, Bool.not_true, Bool.and_false, Bool.false_eq_true, if_false] at failed
      cases failed
  | sampled job samples =>
      obtain ⟨row, found⟩ := sound
      simp only [Write.apply, Write.onDb, found, Option.isSome_some, if_true] at failed
      cases failed
  | notify notification =>
      have known : notification.jobId.all (fun job => (world.db.jobs.find job).isSome) = true := by
        cases named : notification.jobId with
        | none => rfl
        | some job =>
            obtain ⟨row, found⟩ := sound job named
            show (world.db.jobs.find job).isSome = true
            rw [found]
            rfl
      simp only [Write.apply, Write.onDb, known, if_true] at failed
      cases failed
  | insertUser | updateUser | suspend | restore | create | refuse | move | settle | abandon
  | applyPrices => exact beside.elim

/-- What is kept of lines of one stream, and the notice that ends them, is of that stream or the
broker's. -/
theorem withinLogBudget_stream {config : BrokerConfig} {stored : Nat} {lines : List Line}
    {line : Line} (kept : line ∈ withinLogBudget config stored lines) :
    line.1 = "broker" ∨ ∃ whole ∈ lines, line = clipLine config.maxLogLineBytes whole := by
  unfold withinLogBudget at kept
  split at kept
  · cases kept
  · simp only at kept
    split at kept
    · obtain ⟨whole, member, rfl⟩ := List.mem_map.mp kept
      exact Or.inr ⟨whole, member, rfl⟩
    · rcases List.mem_append.mp kept with taken | notice
      · obtain ⟨whole, member, rfl⟩ := List.mem_map.mp (List.mem_of_mem_take taken)
        exact Or.inr ⟨whole, member, rfl⟩
      · rw [List.mem_singleton.mp notice]
        exact Or.inl rfl

theorem clipLine_stream (width : Nat) (line : Line) : (clipLine width line).1 = line.1 := by
  unfold clipLine
  split <;> rfl

/-- Noting something about the jobs is among the transactions made. -/
structure Setting.Notes (setting : Setting γ) : Prop where
  touch : ∀ job columns now world, columns.Ours → setting.makes (.touch job columns now) world
  sampled : ∀ job samples world, setting.makes (.sampled job samples) world
  notify : ∀ notification world, setting.makes (.notify notification) world

/-- The job is in the table. -/
def Present (world : World γ) (job : JobId) : Prop := ∃ row, world.db.jobs.find job = some row

theorem Present.persists {job : JobId} (present : Present world job)
    (persists : Persists world next) : Present next job := by
  obtain ⟨row, found⟩ := present
  obtain ⟨later, hasLater, _⟩ := persists.jobs job row found
  exact ⟨later, hasLater⟩

theorem Setting.Copy.present {job : Job} (copy : setting.Copy job world) :
    Present world job.jobId := by
  obtain ⟨row, found, _⟩ := copy.1.row
  exact ⟨row, found⟩

/-- A note that replaces no record leaves every copy as good as before. -/
theorem safe_note {write : Write} {α : Type} {value : α}
    (makes : ∀ current, setting.makes write current)
    (beside : write.beside) (idle : write.replaces = none)
    (sound : ∀ current, setting.others world current → Sound current write)
    (exactly : ∀ current, Exact setting.outside current write)
    (named : Named setting.outside write) :
    setting.Safe (executing write value)
      (fun result next => result = value ∧ Noted setting none world next) world := by
  refine safe_executing (fun current others _ =>
    ⟨makes current, sound current others, named, fun _ => exactly current, fun _ =>
      unspent_beside beside⟩) ?_
  intro before after final others _ _ applied _ rest _
  exact ⟨rfl, (noted_others others).trans <|
    (noted_write beside (Or.inl idle) applied).trans (noted_others rest)⟩

theorem safe_appendLog {job : JobId} {line : String} (notes : setting.Notes)
    (present : Present world job) :
    setting.Safe (appendLog job line) (fun _ next => Noted setting none world next) world := by
  refine safe_settings fun configured others _ => safe_query fun counted later _ => ?_
  have looked := (looked_others others).trans (looked_others later)
  simp only
  split
  · exact fun final rest _ => (looked.trans (looked_others rest)).noted
  · refine safe_now fun asked rest _ => ?_
    have whole := (looked.trans (looked_others rest)).trans looked_ticked
    have ours : ∀ kept ∈ withinLogBudget configured.config (counted.db.logCount job)
        [("broker", line)], kept.1 = "broker" := by
      intro kept member
      rcases withinLogBudget_stream member with same | ⟨whole, single, rfl⟩
      · exact same
      · rw [clipLine_stream, List.mem_singleton.mp single]
    refine Program.Safe.weaken (safe_note (fun _ => notes.touch _ _ _ _ ours) trivial rfl (fun current moved =>
      ⟨present.persists (whole.trans (looked_others moved)).keeps.1, Or.inl ours⟩) (fun _ => trivial) trivial)
      fun _ _ _ noted => whole.noted.trans noted.2

theorem safe_notify {user : UserId} {job : JobId} {notice : Notice}
    (notes : setting.Notes) (present : Present world job) :
    setting.Safe (notify user (some job) notice) (fun _ next => Noted setting none world next) world := by
  refine safe_now fun asked others _ => ?_
  have looked : Looked setting world asked.ticked := (looked_others others).trans looked_ticked
  refine Program.Safe.weaken (safe_note (notes.notify _) trivial rfl (fun current moved id same => ?_)
    (fun _ => trivial) trivial) fun _ _ _ noted => looked.noted.trans noted.2
  cases same
  exact present.persists (looked.trans (looked_others moved)).keeps.1

theorem safe_recordSamples {job : JobId} {samples : List Sample} (notes : setting.Notes)
    (present : Present world job) :
    setting.Safe (recordSamples job samples) (fun _ next => Noted setting none world next)
      world := by
  unfold recordSamples
  split
  · exact fun final others _ => noted_others others
  · exact Program.Safe.weaken (safe_note (notes.sampled _ _) trivial rfl
      (fun _ moved => present.persists (setting.persists moved)) (fun _ => trivial) trivial)
      fun _ _ _ noted => noted.2

/-! ### Idle jobs -/

theorem safe_evaluate {job : Job} (known : Known world job) :
    setting.Safe (evaluate job)
      (fun verdict next => verdict.job = job ∧ Looked setting world next) world := by
  refine safe_settings fun configured others booked => safe_now fun asked later _ => ?_
  have typed := ((setting.persists others).known known).typed booked
  refine safe_query fun sampled third _ => safe_query fun notified fourth _ => ?_
  have looked : Looked setting world notified :=
    (looked_others others).trans <| (looked_others later).trans <|
      looked_ticked.trans <| (looked_others third).trans (looked_others fourth)
  simp only
  split
  · exact fun final rest _ => ⟨rfl, looked.trans (looked_others rest)⟩
  · split
    · exact fun final rest _ => ⟨rfl, looked.trans (looked_others rest)⟩
    · refine safe_query fun history fifth _ => safe_orRaise typed.raises fun gpu _ => ?_
      exact fun final rest _ =>
        ⟨rfl, looked.trans ((looked_others fifth).trans (looked_others rest))⟩

theorem safe_warnIdle {verdict : IdleVerdict} (notes : setting.Notes)
    (present : Present world verdict.job.jobId) :
    setting.Safe (warnIdle verdict) (fun _ next => Noted setting none world next) world := by
  unfold warnIdle
  split
  · exact fun final others _ => noted_others others
  · refine Program.Safe.bind (safe_notify notes present) fun _ current _ noted => ?_
    exact Program.Safe.weaken (safe_appendLog notes (present.persists noted.keeps.1))
      fun _ _ _ rest => noted.trans rest

theorem safe_evaluateAll {jobs : List Job} (known : ∀ job ∈ jobs, Known world job) :
    setting.Safe (evaluateAll jobs)
      (fun verdicts next => verdicts.map IdleVerdict.job = jobs ∧ Looked setting world next)
      world := by
  induction jobs generalizing world with
  | nil => exact fun final others _ => ⟨rfl, looked_others others⟩
  | cons job jobs inductionHypothesis =>
      refine Program.Safe.bind (safe_evaluate (known job List.mem_cons_self))
        fun verdict middle _ first => ?_
      have rest : ∀ job ∈ jobs, Known middle job := fun job member =>
        first.2.keeps.1.known (known job (List.mem_cons_of_mem _ member))
      refine Program.Safe.bind (inductionHypothesis rest) fun verdicts last _ second final others _ => ?_
      refine ⟨?_, first.2.trans (second.2.trans (looked_others others))⟩
      rw [List.map_cons, first.1, second.1]

theorem safe_sample {job : Job} {backend : Backend γ} (notes : setting.Notes)
    (watches : setting.Watches backend) (copy : setting.Copy job world) :
    setting.Safe (sample job backend) (fun _ next => Noted setting none world next) world := by
  refine safe_now fun asked others _ => safe_query fun last later _ => safe_settings ?_
  intro configured third _
  have looked : Looked setting world configured :=
    (looked_others others).trans <| looked_ticked.trans <|
      (looked_others later).trans (looked_others third)
  have nothing : ∀ {current : World γ}, Looked setting world current →
      setting.Safe (pure () : Op γ Unit) (fun _ next => Noted setting none world next) current :=
    fun had final rest _ => (had.trans (looked_others rest)).noted
  split
  · exact nothing looked
  · refine safe_external (fun cloud => ⟨.other, setting.rests, watches.sampled _ cloud⟩)
      fun current fourth _ => ?_
    have called := looked.trans ((looked_others fourth).trans
      (looked_called (watches.sampled (job.backendHandle.getD "") current.cloud)))
    split
    · exact nothing called
    · simp only
      split
      · exact nothing called
      · have present := copy.present.persists called.keeps.1
        refine Program.Safe.bind (safe_recordSamples notes present) fun _ recorded _ first => ?_
        have known := (called.noted.trans first).keeps.1.known copy.1
        refine Program.Safe.bind (safe_evaluate known) fun verdict judged _ second => ?_
        have whole := (called.noted.trans first).trans second.2.noted
        refine Program.Safe.weaken (safe_warnIdle notes ?_) fun _ _ _ rest => whole.trans rest
        rw [second.1]
        exact copy.present.persists whole.keeps.1

/-! ### Output -/

/-- What draining a job's output leaves: the record with the cursor moved is a good copy. -/
theorem safe_drainLogs {job : Job} {backend : Backend γ} {handle : String}
    (notes : setting.Notes)
    (stores : ∀ after polled kept now world,
      setting.makes (.touch job.jobId (.output after polled kept) now) world)
    (watches : setting.Watches backend) (copy : setting.Copy job world)
    (active : job.state.active = true) (placed : job.backendHandle = some handle)
    (named : backend.name = job.backend.getD "") :
    setting.Safe (drainLogs job backend)
      (fun drained next => Touched setting job world drained next ∧ drained.backend = job.backend ∧
        drained.essence = { job.essence with logsFetched := drained.logsFetched }) world := by
  have called : job.backendHandle.getD "" = handle := by
    rw [placed]
    rfl
  unfold drainLogs
  rw [called]
  refine safe_external (fun cloud => ⟨.other, setting.rests, watches.fetchLogs _ _ cloud⟩)
    fun current others _ => ?_
  have called := (looked_others others).trans
    (looked_called (watches.fetchLogs handle job.logsFetched current.cloud))
  have same : ∀ {final : World γ}, Noted setting none world final →
      Touched setting job world job final ∧ job.backend = job.backend ∧
        job.essence = { job.essence with logsFetched := job.logsFetched } := fun noted =>
    ⟨⟨rfl, rfl, rfl, rfl, noted.keeps.copy copy, noted.weaken⟩, rfl, rfl⟩
  split
  · refine Program.Safe.bind (safe_appendLog notes (copy.present.persists called.keeps.1))
      fun _ logged _ noted final rest _ => ?_
    exact same (called.noted.trans (noted.trans (noted_others rest)))
  · next lines answer =>
    split
    · exact fun final rest _ => same (called.noted.trans (noted_others rest))
    · next some =>
      unfold appendBackendLogs
      rw [if_neg some]
      have store : setting.Safe
          (now >>= fun now => settings >>= fun config =>
            query (fun db => db.logCount job.jobId) >>= fun stored =>
              executing (.touch job.jobId
                (.output job.logsFetched lines (withinLogBudget config stored lines)) now)
                (job.logsFetched + lines.length))
          (fun cursor next => Touched setting job world { job with logsFetched := cursor } next)
          (current.called (backend.fetchLogs handle job.logsFetched current.cloud).2) := by
        refine safe_now fun asked later _ => safe_settings fun configured third _ =>
          safe_query fun counted fourth _ => ?_
        have before : Looked setting world counted :=
          called.trans <| (looked_others later).trans <| looked_ticked.trans <|
            (looked_others third).trans (looked_others fourth)
        refine safe_executing (fun committing fifth _ => ?_) ?_
        · have whole := before.trans (looked_others fifth)
          have copyHere := whole.keeps.copy copy
          refine ⟨stores _ _ _ _ _, ⟨copyHere.present, Or.inr ⟨_, _, _, rfl⟩⟩, trivial, fun alone => ?_, fun _ => trivial⟩
          have cloud : committing.cloud =
              (backend.fetchLogs handle job.logsFetched current.cloud).2 := by
            rw [setting.still alone fifth, setting.still alone fourth, setting.still alone third]
            show asked.cloud = _
            rw [setting.still alone later]
            rfl
          refine ⟨?_, ?_, job, handle, rfl, copyHere.2 alone, active, rfl, placed, ?_⟩
          · exact fun empty => some (by rw [empty]; rfl)
          · rw [setting.still alone fifth, setting.still alone fourth]
          · rw [← named, cloud]
            exact watches.answers handle job.logsFetched current.cloud lines answer
        · intro committing after final fifth _ _ applied _ rest _
          have whole := before.trans (looked_others fifth)
          have beside : (Write.touch job.jobId (.output job.logsFetched lines
              (withinLogBudget configured.config (counted.db.logCount job.jobId) lines))
              (asked.clock asked.asked)).beside := trivial
          refine ⟨rfl, rfl, rfl, rfl, ?_,
            (whole.noted.trans (noted_write beside (Or.inr rfl) applied)).trans (noted_others rest)⟩
          refine (keeps_others rest).copy (copy_touched (whole.keeps.copy copy) applied
            (fun row same => ?_) rfl rfl rfl rfl rfl)
          exact essence_update same (Touch.onRow (.output job.logsFetched lines _) _)
            (fun job' => { job' with logsFetched := job.logsFetched + lines.length }) fun _ => rfl
      refine Program.Safe.bind store fun cursor last _ touched final rest _ => ?_
      refine ⟨⟨rfl, rfl, rfl, rfl, (keeps_others rest).copy touched.copy,
        touched.noted.trans (noted_others rest)⟩, rfl, rfl⟩

end GpuBroker.Broker
