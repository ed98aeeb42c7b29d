/-
This file is the budget of a job's log: how many lines a job may keep and how
long one may be, against the four methods of the store that write to it.

What a job and the broker's notes print is clipped and cut off, with a notice in
the last line that is kept. The clipping counts characters where the limit is in
bytes, and a note that a job is pinned or asked to stop is written past the
budget. So the log is within it exactly as long as nothing that is clipped is
too long in bytes, and those notes come while there is room.
-/
import GpuBroker.Broker.Runs

namespace GpuBroker.Broker

open Library

variable {γ α : Type}

/-! ### Accepted configurations -/

/-- The limits a configuration sets, under their names in it. -/
def BrokerConfig.limits (config : BrokerConfig) : List (String × Nat) :=
  [("max_command_bytes", config.maxCommandBytes),
    ("max_queued_jobs_per_user", config.maxQueuedJobsPerUser),
    ("max_running_jobs_per_user", config.maxRunningJobsPerUser),
    ("max_log_lines_per_job", config.maxLogLinesPerJob),
    ("max_log_line_bytes", config.maxLogLineBytes)]

/-- The check of the limits: a limit of nothing at all is refused. -/
def BrokerConfig.validateLimits (config : BrokerConfig) : Except String Unit :=
  forM config.limits fun limit => if limit.2 < 1 then .error s!"{limit.1} must be at least 1" else .ok ()

theorem forM_ok {β ε : Type} {check : β → Except ε Unit} :
    ∀ {items : List β}, forM items check = .ok () → ∀ item ∈ items, check item = .ok ()
  | [], _, item, member => by cases member
  | first :: rest, passed, item, member => by
    rw [List.forM_cons] at passed
    cases checked : check first with
    | error error =>
        rw [checked] at passed
        cases passed
    | ok value =>
        rw [checked] at passed
        rcases List.mem_cons.mp member with rfl | later
        · exact checked
        · exact forM_ok passed item later

/-- An accepted configuration has no limit of zero. -/
theorem BrokerConfig.limits_pos {config : BrokerConfig} (accepted : config.validateLimits = .ok ()) :
    ∀ limit ∈ config.limits, 0 < limit.2 := by
  intro limit member
  have passed := forM_ok accepted limit member
  by_contra zero
  rw [if_pos (by omega)] at passed
  cases passed

/-! ### Lines within the budget -/

/-- The length of a text in bytes. -/
def utf8Bytes (text : String) : Nat := (text.toList.map Char.utf8Size).sum

/-- The notice that nothing more is kept. -/
def lastLine (config : BrokerConfig) : Line := ("broker", truncationNotice config.maxLogLinesPerJob)

/-- A log is within the budget: it has no more lines than it may, none is longer than it may be, and when
it is full its last line says so. -/
structure LogBounded (config : BrokerConfig) (lines : List Line) : Prop where
  count : lines.length ≤ config.maxLogLinesPerJob
  width : ∀ line ∈ lines, utf8Bytes line.2 ≤ config.maxLogLineBytes
  notice : lines.length = config.maxLogLinesPerJob → lines.getLast? = some (lastLine config)

/-- A text is no longer in bytes than a line may be, once it is clipped to as many characters. -/
def FitsWidth (width : Nat) (text : String) : Prop :=
  if text.length ≤ width then utf8Bytes text ≤ width
  else 3 ≤ width ∧ utf8Bytes (String.ofList (text.toList.take (width - 3))) + 3 ≤ width

instance (width : Nat) (text : String) : Decidable (FitsWidth width text) :=
  inferInstanceAs (Decidable (ite _ _ _))

/-- What is kept of some lines is not too long, and neither is the notice where it is needed. -/
structure FitsLog (config : BrokerConfig) (stored : Nat) (lines : List Line) : Prop where
  kept : ∀ line ∈ lines.take (config.maxLogLinesPerJob - 1 - stored),
    FitsWidth config.maxLogLineBytes line.2
  notice : stored < config.maxLogLinesPerJob → config.maxLogLinesPerJob ≤ stored + lines.length →
    utf8Bytes (truncationNotice config.maxLogLinesPerJob) ≤ config.maxLogLineBytes

theorem utf8Bytes_append (first second : String) :
    utf8Bytes (first ++ second) = utf8Bytes first + utf8Bytes second := by
  unfold utf8Bytes
  rw [String.toList_append, List.map_append, List.sum_append]

theorem clipLine_fits_iff {width : Nat} {line : Line} :
    utf8Bytes (clipLine width line).2 ≤ width ↔ FitsWidth width line.2 := by
  unfold clipLine FitsWidth
  split
  · rfl
  · have dots : utf8Bytes "..." = 3 := by decide
    simp only [utf8Bytes_append, dots]
    by_cases wide : 3 ≤ width
    · have count : ((width : Int) - 3).toNat = width - 3 := by omega
      have slice : sliceTo line.2.toList ((width : Int) - 3) = line.2.toList.take (width - 3) := by
        unfold sliceTo
        rw [if_pos (by omega), count]
      rw [slice]
      exact ⟨fun short => ⟨wide, short⟩, fun both => both.2⟩
    · exact iff_of_false (by omega) fun both => wide both.1

/-- What is kept of some lines is a part of them, clipped, and the notice where they do not all fit. -/
theorem withinLogBudget_eq {config : BrokerConfig} {stored : Nat} (room : stored < config.maxLogLinesPerJob)
    (lines : List Line) :
    withinLogBudget config stored lines =
      (lines.take (config.maxLogLinesPerJob - 1 - stored)).map (clipLine config.maxLogLineBytes) ++
        if config.maxLogLinesPerJob ≤ stored + lines.length then [lastLine config] else [] := by
  unfold withinLogBudget
  rw [if_neg (not_le.mpr room)]
  simp only [List.length_map]
  split
  · next fits =>
    rw [List.take_of_length_le (by omega), if_neg (by omega), List.append_nil]
  · next beyond =>
    rw [if_pos (by omega), List.map_take]
    exact congrArg (fun count => List.take count _ ++ _) (by omega)

theorem withinLogBudget_full {config : BrokerConfig} {stored : Nat}
    (full : config.maxLogLinesPerJob ≤ stored) (lines : List Line) :
    withinLogBudget config stored lines = [] := if_pos full

/-- A log that is within the budget stays there exactly when what is kept of what is printed fits. -/
theorem logBounded_within_iff {config : BrokerConfig} {stored : List Line} (bounded : LogBounded config stored)
    (lines : List Line) :
    LogBounded config (stored ++ withinLogBudget config stored.length lines) ↔
      FitsLog config stored.length lines := by
  rcases lt_or_ge stored.length config.maxLogLinesPerJob with room | full
  · rw [withinLogBudget_eq room]
    have count : (stored ++ ((lines.take (config.maxLogLinesPerJob - 1 - stored.length)).map
        (clipLine config.maxLogLineBytes) ++
          if config.maxLogLinesPerJob ≤ stored.length + lines.length then [lastLine config] else [])).length =
        min config.maxLogLinesPerJob (stored.length + lines.length) := by
      rw [List.length_append, List.length_append, List.length_map, List.length_take]
      split
      · rw [List.length_singleton]
        omega
      · rw [List.length_nil]
        omega
    constructor
    · intro after
      refine ⟨fun line member => clipLine_fits_iff.mp (after.width _ ?_), fun _ beyond => ?_⟩
      · exact List.mem_append_right _ (List.mem_append_left _ (List.mem_map_of_mem member))
      · refine after.width (lastLine config) ?_
        rw [if_pos beyond]
        exact List.mem_append_right _ (List.mem_append_right _ List.mem_cons_self)
    · intro fits
      refine ⟨by rw [count]; exact min_le_left _ _, fun line member => ?_, fun full => ?_⟩
      · rcases List.mem_append.mp member with before | added
        · exact bounded.width line before
        · rcases List.mem_append.mp added with kept | last
          · obtain ⟨whole, taken, rfl⟩ := List.mem_map.mp kept
            exact clipLine_fits_iff.mpr (fits.kept whole taken)
          · split at last
            · next beyond =>
              rw [List.mem_singleton.mp last]
              exact fits.notice room beyond
            · cases last
      · rw [count, min_eq_left_iff] at full
        rw [if_pos full, ← List.append_assoc, List.getLast?_append_of_ne_nil _ (by simp)]
        rfl
  · rw [withinLogBudget_full full, List.append_nil]
    refine iff_of_true bounded ⟨fun line member => ?_, fun room => absurd full (not_le.mpr room)⟩
    rw [show config.maxLogLinesPerJob - 1 - stored.length = 0 by omega, List.take_zero] at member
    cases member

/-- A line that is written past the budget keeps a log within it exactly when there is room for it and the
notice, and it is short. -/
theorem logBounded_single_iff {config : BrokerConfig} {stored : List Line} (bounded : LogBounded config stored)
    {line : Line} (other : line ≠ lastLine config) :
    LogBounded config (stored ++ [line]) ↔
      stored.length + 1 < config.maxLogLinesPerJob ∧ utf8Bytes line.2 ≤ config.maxLogLineBytes := by
  have count : (stored ++ [line]).length = stored.length + 1 := List.length_append
  constructor
  · intro after
    refine ⟨lt_of_le_of_ne (count ▸ after.count) fun full => other ?_,
      after.width line (List.mem_append_right _ List.mem_cons_self)⟩
    have last := after.notice (count.trans full)
    rw [List.getLast?_append_of_ne_nil _ (List.cons_ne_nil _ _)] at last
    exact Option.some.inj last
  · rintro ⟨room, short⟩
    refine ⟨count ▸ room.le, fun kept member => ?_, fun full => absurd (count.symm.trans full) room.ne⟩
    rcases List.mem_append.mp member with before | added
    · exact bounded.width kept before
    · rw [List.mem_singleton.mp added]
      exact short

/-! ### The lines of a job -/

/-- A job's log. -/
def Db.logOf (db : Db) (id : JobId) : List Line :=
  (db.logs.filter fun row => row.jobId = id).map fun row => (row.stream, row.line)

theorem Db.logOf_length (db : Db) (id : JobId) : (db.logOf id).length = db.logCount id := by
  unfold Db.logOf Db.logCount
  rw [List.length_map]

/-- The lines a touch adds to the log of its job, and to no other. -/
theorem logOf_touch {db : Db} {job : JobId} {now : Time} {lines : List Line} {jobs : Table Job Job.jobId}
    (id : JobId) :
    ({ db with jobs, logs := db.logs ++ lines.map fun line => ⟨job, now, line.1, line.2⟩ } : Db).logOf id =
      db.logOf id ++ if job = id then lines else [] := by
  unfold Db.logOf
  simp only
  rw [List.filter_append, List.map_append]
  refine congrArg _ ?_
  split
  · next same =>
    rw [List.filter_eq_self.mpr fun row member => ?_, List.map_map]
    · exact List.map_id _
    · obtain ⟨line, _, rfl⟩ := List.mem_map.mp member
      exact decide_eq_true same
  · next differs =>
    rw [List.filter_eq_nil_iff.mpr fun row member => ?_]
    · rfl
    · obtain ⟨line, _, rfl⟩ := List.mem_map.mp member
      exact fun equal => differs (of_decide_eq_true equal)

/-! ### The writers -/

/-- Add a line of any stream to a job's log. -/
def appendLogTo (job : JobId) (stream line : String) : Op γ Unit := do
  let config ← settings
  let stored ← query fun db => db.logCount job
  let keep := withinLogBudget config stored [(stream, line)]
  if keep.isEmpty then pure ()
  else do
    let now ← now
    executing (.touch job (.note keep) now) ()

/-- The notes of the broker are of its own stream. -/
theorem appendLog_eq (job : JobId) (line : String) :
    (appendLog job line : Op γ Unit) = appendLogTo job "broker" line := rfl

/-- A method of the store that writes to a job's log. -/
inductive LogWriter where
  | appendLog (job : JobId) (stream line : String)
  | appendBackendLogs (job : Job) (lines : List Line)
  | pinTier (job : Job) (tier reason : String)
  | requestCancel (job : Job) (actor : String)

/-- The job it writes to. -/
def LogWriter.jobId : LogWriter → JobId
  | appendLog job _ _ => job
  | appendBackendLogs job _ | pinTier job _ _ | requestCancel job _ => job.jobId

/-- The world after a call. -/
def LogWriter.apply (world : World γ) : LogWriter → World γ
  | appendLog job stream line => ((appendLogTo job stream line).whole world).2
  | appendBackendLogs job lines => ((Broker.appendBackendLogs job lines).whole world).2
  | pinTier job tier reason => ((Broker.pinTier job tier reason).whole world).2
  | requestCancel job actor => ((Broker.requestCancel job actor).whole world).2

/-- The world after some calls. -/
def World.afterWriters (world : World γ) (writers : List LogWriter) : World γ :=
  writers.foldl LogWriter.apply world

/-- The lines a call sets out to store. -/
def LogWriter.lines (world : World γ) : LogWriter → List Line
  | appendLog job stream line => withinLogBudget world.config (world.db.logCount job) [(stream, line)]
  | appendBackendLogs job lines => withinLogBudget world.config (world.db.logCount job.jobId) lines
  | pinTier _ tier reason => [("broker", s!"pinned to {tier}: {reason}")]
  | requestCancel _ actor => [("broker", s!"cancel requested by {actor}")]

/-- The table of logs takes lines: the job is there, and the streams are known. -/
def World.Takes (world : World γ) (id : JobId) (lines : List Line) : Prop :=
  (world.db.jobs.find id).isSome = true ∧ ∀ line ∈ lines, line.1 ∈ logStreams

instance (world : World γ) (id : JobId) (lines : List Line) : Decidable (world.Takes id lines) :=
  inferInstanceAs (Decidable (_ ∧ _))

theorem touch_apply (job : JobId) (columns : Touch) (now : Time) (world : World γ) :
    (Write.touch job columns now).apply world =
      match world.db.touchJob job columns now with
      | .ok db => .ok { world with db }
      | .error error => .error error := by
  unfold Write.apply
  cases written : (Write.touch job columns now).onDb world.config world.db with
  | ok db =>
      rw [show world.db.touchJob job columns now = .ok db from written]
      rfl
  | error error =>
      rw [show world.db.touchJob job columns now = .error error from written]

/-- What a touch of a row leaves of the logs: it is rolled back where the table does not take its lines. -/
theorem whole_touch_logs (job : JobId) (columns : Touch) (now : Time) (value : α) (world : World γ)
    (id : JobId) :
    (((executing (.touch job columns now) value).whole world).2.db.logOf id =
        world.db.logOf id ++ if job = id ∧ world.Takes id columns.lines then columns.lines else []) ∧
      ((executing (.touch job columns now) value).whole world).2.config = world.config := by
  rw [whole_executing, touch_apply]
  unfold Db.touchJob
  simp only
  by_cases rolled : (columns.lines ≠ [] &&
      !((world.db.jobs.find job).isSome && columns.lines.all fun line => line.1 ∈ logStreams)) = true
  · rw [if_pos rolled]
    have refused : ¬ (job = id ∧ world.Takes id columns.lines) := by
      rintro ⟨rfl, there, streams⟩
      simp [there] at rolled
      obtain ⟨_, stream, ⟨name, member⟩, unknown⟩ := rolled
      exact unknown (streams _ member)
    rw [if_neg refused, List.append_nil]
    exact ⟨rfl, rfl⟩
  · rw [if_neg rolled]
    refine ⟨(logOf_touch id).trans (congrArg _ ?_), rfl⟩
    by_cases mine : job = id
    · subst mine
      rw [if_pos rfl]
      by_cases takes : world.Takes job columns.lines
      · rw [if_pos ⟨rfl, takes⟩]
      · rw [if_neg fun both => takes both.2]
        by_contra some
        refine rolled (Bool.and_eq_true_iff.mpr ⟨decide_eq_true some, ?_⟩)
        rw [Bool.not_eq_true', Bool.eq_false_iff]
        intro known
        rw [Bool.and_eq_true, List.all_eq_true] at known
        exact takes ⟨known.1, fun line member => of_decide_eq_true (known.2 line member)⟩
    · rw [if_neg mine, if_neg fun both => mine both.1]

/-- What a call leaves of the logs. -/
theorem LogWriter.apply_logs (world : World γ) (writer : LogWriter) (id : JobId) :
    ((writer.apply world).db.logOf id = world.db.logOf id ++
        if writer.jobId = id ∧ world.Takes id (writer.lines world) then writer.lines world else []) ∧
      (writer.apply world).config = world.config := by
  cases writer with
  | appendLog job stream line =>
      unfold apply appendLogTo
      simp only
      rw [whole_settings, whole_query]
      split
      · next nothing =>
        have none : lines world (.appendLog job stream line) = [] := List.isEmpty_iff.mp nothing
        rw [none, ite_self, List.append_nil]
        exact ⟨rfl, rfl⟩
      · rw [whole_now]
        exact whole_touch_logs job _ _ () world.ticked id
  | appendBackendLogs job lines =>
      unfold apply Broker.appendBackendLogs
      simp only
      split
      · next empty =>
        have none : LogWriter.lines world (.appendBackendLogs job lines) = [] := by
          rw [List.isEmpty_iff.mp empty]
          unfold LogWriter.lines withinLogBudget
          simp only
          split
          · rfl
          · next room => rw [if_pos (by simpa using room)]; rfl
        rw [none, ite_self, List.append_nil]
        exact ⟨rfl, rfl⟩
      · rw [whole_now, whole_settings, whole_query]
        exact whole_touch_logs job.jobId _ _ _ world.ticked id
  | pinTier job tier reason => exact whole_touch_logs job.jobId (.pinTier tier reason) _ _ world.ticked id
  | requestCancel job actor => exact whole_touch_logs job.jobId (.cancelRequest actor) _ _ world.ticked id

/-! ### Within the budget -/

/-- What a job prints keeps its log within the budget: some of what is kept is of no known stream, so that
nothing is stored, or all of it fits. -/
def World.Prints (world : World γ) (id : JobId) (lines : List Line) : Prop :=
  (∀ line ∈ lines.take (world.config.maxLogLinesPerJob - 1 - world.db.logCount id), line.1 ∈ logStreams) →
    FitsLog world.config (world.db.logCount id) lines

/-- A note that is written past the budget keeps a log within it: there is room for the note and the notice,
and the note is short. -/
def World.HasRoom (world : World γ) (id : JobId) (text : String) : Prop :=
  world.db.logCount id + 1 < world.config.maxLogLinesPerJob ∧ utf8Bytes text ≤ world.config.maxLogLineBytes

/-- A call keeps a job's log within the budget: it is for another job, or for none that there is, or what it
writes fits. -/
def LogWriter.Fits (world : World γ) (id : JobId) (writer : LogWriter) : Prop :=
  writer.jobId = id → (world.db.jobs.find id).isSome = true →
    match writer with
    | appendLog _ stream line => world.Prints id [(stream, line)]
    | appendBackendLogs _ lines => world.Prints id lines
    | pinTier _ tier reason => world.HasRoom id s!"pinned to {tier}: {reason}"
    | requestCancel _ actor => world.HasRoom id s!"cancel requested by {actor}"

theorem broker_known : "broker" ∈ logStreams := by decide

theorem head_append {first second : String} {head : Char} (starts : first.toList.head? = some head) :
    (first ++ second).toList.head? = some head := by
  rw [String.toList_append, List.head?_append, starts]
  rfl

/-- The notice begins with a bracket. -/
theorem truncationNotice_head (limit : Nat) : (truncationNotice limit).toList.head? = some '[' := by
  unfold truncationNotice
  exact head_append (head_append (head_append rfl))

theorem pin_head (tier reason : String) : (s!"pinned to {tier}: {reason}").toList.head? = some 'p' :=
  head_append (head_append (head_append rfl))

theorem request_head (actor : String) : (s!"cancel requested by {actor}").toList.head? = some 'c' :=
  head_append rfl

/-- The table takes what is kept of some lines exactly when it would take them unclipped. -/
theorem takes_within_iff {world : World γ} {id : JobId} (there : (world.db.jobs.find id).isSome = true)
    (stored : Nat) (lines : List Line) :
    world.Takes id (withinLogBudget world.config stored lines) ↔
      ∀ line ∈ lines.take (world.config.maxLogLinesPerJob - 1 - stored), line.1 ∈ logStreams := by
  have clipped : ∀ line, (clipLine world.config.maxLogLineBytes line).1 = line.1 := by
    intro line
    unfold clipLine
    split <;> rfl
  rcases lt_or_ge stored world.config.maxLogLinesPerJob with room | full
  · rw [withinLogBudget_eq room]
    constructor
    · rintro ⟨_, streams⟩ line member
      rw [← clipped line]
      exact streams _ (List.mem_append_left _ (List.mem_map_of_mem member))
    · intro streams
      refine ⟨there, fun line member => ?_⟩
      rcases List.mem_append.mp member with kept | last
      · obtain ⟨whole, taken, rfl⟩ := List.mem_map.mp kept
        rw [clipped whole]
        exact streams whole taken
      · split at last
        · rw [List.mem_singleton.mp last]
          exact broker_known
        · cases last
  · rw [withinLogBudget_full full, show world.config.maxLogLinesPerJob - 1 - stored = 0 by omega,
      List.take_zero]
    exact iff_of_true ⟨there, fun line member => absurd member List.not_mem_nil⟩
      fun line member => absurd member List.not_mem_nil

/-- What a job prints keeps its log within the budget exactly when it fits. -/
theorem logBounded_prints_iff {world : World γ} {id : JobId} (there : (world.db.jobs.find id).isSome = true)
    (bounded : LogBounded world.config (world.db.logOf id)) (lines : List Line) :
    LogBounded world.config (world.db.logOf id ++
        if world.Takes id (withinLogBudget world.config (world.db.logCount id) lines)
        then withinLogBudget world.config (world.db.logCount id) lines else []) ↔ world.Prints id lines := by
  unfold World.Prints
  rw [← takes_within_iff there, ← Db.logOf_length]
  split
  · next takes =>
    rw [logBounded_within_iff bounded lines]
    exact ⟨fun fits _ => fits, fun fits => fits takes⟩
  · next refused =>
    rw [List.append_nil]
    exact iff_of_true bounded fun takes => absurd takes refused

/-- A note past the budget keeps a log within it exactly when there is room. -/
theorem logBounded_note_iff {world : World γ} {id : JobId} (there : (world.db.jobs.find id).isSome = true)
    (bounded : LogBounded world.config (world.db.logOf id)) {text : String}
    {head : Char} (starts : text.toList.head? = some head) (other : head ≠ '[') :
    LogBounded world.config (world.db.logOf id ++
        if world.Takes id [("broker", text)] then [("broker", text)] else []) ↔ world.HasRoom id text := by
  have takes : world.Takes id [("broker", text)] := by
    refine ⟨there, fun line member => ?_⟩
    rw [List.mem_singleton.mp member]
    exact broker_known
  have differs : ("broker", text) ≠ lastLine world.config := by
    intro same
    rw [show text = truncationNotice world.config.maxLogLinesPerJob from congrArg Prod.snd same,
      truncationNotice_head] at starts
    exact other (Option.some.inj starts).symm
  rw [if_pos takes, logBounded_single_iff bounded differs, Db.logOf_length]
  rfl

/-- A call keeps a log that is within the budget there exactly when what it writes fits. -/
theorem LogWriter.apply_bounded_iff {world : World γ} {id : JobId}
    (bounded : LogBounded world.config (world.db.logOf id)) (writer : LogWriter) :
    LogBounded (writer.apply world).config ((writer.apply world).db.logOf id) ↔ writer.Fits world id := by
  obtain ⟨logs, same⟩ := writer.apply_logs world id
  rw [logs, same]
  unfold Fits
  by_cases mine : writer.jobId = id
  · by_cases there : (world.db.jobs.find id).isSome = true
    · simp only [mine, there, true_and, forall_true_left]
      subst mine
      cases writer with
      | appendLog job stream line => exact logBounded_prints_iff there bounded [(stream, line)]
      | appendBackendLogs job lines => exact logBounded_prints_iff there bounded lines
      | pinTier job tier reason => exact logBounded_note_iff there bounded (pin_head tier reason) (by decide)
      | requestCancel job actor => exact logBounded_note_iff there bounded (request_head actor) (by decide)
    · rw [if_neg fun both => there both.2.1, List.append_nil]
      exact iff_of_true bounded fun _ known => absurd known there
  · rw [if_neg fun both => mine both.1, List.append_nil]
    exact iff_of_true bounded fun own => absurd own mine

theorem afterWriters_snoc (world : World γ) (done : List LogWriter) (writer : LogWriter) :
    world.afterWriters (done ++ [writer]) = writer.apply (world.afterWriters done) :=
  List.foldl_concat ..

/-- A log that nothing is written to is within every budget that is not zero. -/
theorem logBounded_nil {config : BrokerConfig} (room : 0 < config.maxLogLinesPerJob) : LogBounded config [] :=
  ⟨Nat.zero_le _, fun _ member => absurd member List.not_mem_nil, fun full => absurd full room.ne⟩

/-- Under an accepted configuration the log of a new job is within the budget after every call of a sequence
exactly when what each of them writes fits. -/
theorem log_within_budget_iff {world : World γ} {id : JobId} (accepted : world.config.validateLimits = .ok ())
    (fresh : world.db.logOf id = []) (writers : List LogWriter) :
    (∀ done, done <+: writers →
        LogBounded (world.afterWriters done).config ((world.afterWriters done).db.logOf id)) ↔
      ∀ done writer, done ++ [writer] <+: writers → writer.Fits (world.afterWriters done) id := by
  constructor
  · intro bounded done writer before
    have first := bounded done ((List.prefix_append done [writer]).trans before)
    have second := bounded (done ++ [writer]) before
    rw [afterWriters_snoc] at second
    exact (LogWriter.apply_bounded_iff first writer).mp second
  · intro fits done
    induction done using List.reverseRecOn with
    | nil =>
        intro _
        show LogBounded world.config (world.db.logOf id)
        rw [fresh]
        have known : ("max_log_lines_per_job", world.config.maxLogLinesPerJob) ∈ world.config.limits := by
          simp [BrokerConfig.limits]
        exact logBounded_nil (BrokerConfig.limits_pos accepted _ known)
    | append_singleton done writer earlier =>
        intro before
        have first := earlier ((List.prefix_append done [writer]).trans before)
        rw [afterWriters_snoc]
        exact (LogWriter.apply_bounded_iff first writer).mpr (fits done writer before)

/-- The job Ann asks for. -/
def Job.annsOwn : Job := NewJob.row ⟨"job", "ann", "train", "t4", 4, .usd, 1, none, "real"⟩ .queued 0

/-- The club, Ann's job submitted, where a job may keep so many lines of so many bytes. -/
def World.brief (lines bytes : Nat) : World Rack :=
  Rack.running.after Operation.opening
    (World.club { BrokerConfig.club with maxLogLinesPerJob := lines, maxLogLineBytes := bytes })

/-- A job that prints more than it may keep is cut off within the budget. -/
theorem log_within_budget_cut :
    let world := World.brief 3 128
    let writers := [LogWriter.appendBackendLogs Job.annsOwn (List.replicate 5 ("stdout", "epoch"))]
    ∀ done, done <+: writers →
      LogBounded (world.afterWriters done).config ((world.afterWriters done).db.logOf "job") := by
  refine (log_within_budget_iff (by decide +kernel) (by decide +kernel) _).mpr fun done writer before => ?_
  have length := before.length_le
  rw [List.length_append, List.length_singleton, List.length_singleton] at length
  obtain rfl : done = [] := List.length_eq_zero_iff.mp (by omega)
  obtain rfl := (List.cons_prefix_cons.mp before).1
  exact fun _ _ _ => ⟨by decide +kernel, by decide +kernel⟩

/-- Two requests to stop a job fill a log of two lines, so that the last is no notice; a third takes it past
the budget; and a line of letters of two bytes is clipped to one that is too long. -/
theorem log_overruns :
    let cancel := LogWriter.requestCancel Job.annsOwn "ann"
    let short := World.brief 2 128
    let narrow := World.brief 2 8
    short.config.validateLimits = .ok () ∧ narrow.config.validateLimits = .ok () ∧
      short.db.logOf "job" = [] ∧ narrow.db.logOf "job" = [] ∧
      ((short.afterWriters [cancel, cancel]).db.logOf "job").length = 2 ∧
      ((short.afterWriters [cancel, cancel]).db.logOf "job").getLast? ≠ some (lastLine short.config) ∧
      2 < ((short.afterWriters [cancel, cancel, cancel]).db.logOf "job").length ∧
      ∃ line ∈ (narrow.afterWriters [.appendLog "job" "stdout" "ééééééééé"]).db.logOf "job",
        8 < utf8Bytes line.2 := by
  decide +kernel

end GpuBroker.Broker
