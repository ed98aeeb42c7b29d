/-
This file is what a checkpoint store restores after crashes.

Only the newest completed checkpoint matters: its manifest and its files are in
place, and every other path the store takes for a manifest says nothing or
speaks of an older step. Each `put`, cut off anywhere, keeps that, with the same
checkpoint or with its own as the newest, unless it writes over the files of the
newest one or brings a file of its own that reads as a manifest.
-/
import GpuBroker.Broker.Checkpoints

namespace GpuBroker.Broker

open Library

variable {Body Text : Type}

/-! ### Puts that may be cut off -/

/-- A call of `put`, and after how many accesses it is cut off at the latest. -/
structure Put (Body : Type) where
  step : Int
  source : Source Body
  moment : Time
  length : Nat

/-- A checkpoint: the step, the directory and the time it was saved with. -/
structure Saved (Body : Type) where
  step : Int
  directory : Directory Body
  moment : Time

namespace CheckpointStore

/-- Where a store keeps everything. -/
def root : CheckpointStore → String
  | onDisk store => store.root
  | inBucket store => store.pre

/-- The directory of a step. -/
def base (store : CheckpointStore) (jobId : JobId) (step : Int) : String :=
  child (child store.root jobId) (stepName step)

/-- Does a store take a path for a manifest? -/
def lists (jobId : JobId) (path : String) : CheckpointStore → Bool
  | onDisk store =>
      match entryOf (child store.root jobId) path with
      | some entry => path = child (child (child store.root jobId) entry) manifest
      | none => false
  | inBucket store =>
      within (child store.pre jobId) path && manifest.toList.isSuffixOf path.toList

/-- How a `put` is run. -/
def program (store : CheckpointStore) (codec : Codec Body Text) (jobId : JobId) (call : Put Body) :
    Filing Body CheckpointError CheckpointRef :=
  store.put codec jobId call.step call.source call.moment

/-- What a sequence of puts leaves. -/
def after (store : CheckpointStore) (codec : Codec Body Text) (jobId : JobId) (calls : List (Put Body))
    (files : Files Body) : Files Body :=
  Program.sequence (calls.map fun call => (store.program codec jobId call, call.length)) files

/-- The puts of a sequence that completed. -/
def completed (store : CheckpointStore) (codec : Codec Body Text) (jobId : JobId) :
    List (Put Body) → Files Body → List (Put Body)
  | [], _ => []
  | call :: calls, files =>
      let left := (store.program codec jobId call).run call.length files
      (if left.1.answer.isSome then [call] else []) ++ store.completed codec jobId calls left.2

/-- What a store clears away before it writes a checkpoint. -/
def cleared (jobId : JobId) (step : Int) (files : Files Body) : CheckpointStore → List (Edit Body)
  | onDisk store => (files.paths.filter fun path => within (store.dir jobId step) path).map .remove
  | inBucket _ => []

/-- How often a store looks before it writes a checkpoint. -/
def looks : CheckpointStore → Nat
  | onDisk _ => 1
  | inBucket _ => 0

/-- Does a directory of a source stand where the manifest is to be written? -/
def obstructed (directory : Directory Body) : CheckpointStore → Bool
  | onDisk _ => directory.files.any fun file => within manifest file.1
  | inBucket _ => false

/-- The changes before the manifest. -/
def uploads (store : CheckpointStore) (jobId : JobId) (call : Put Body) (directory : Directory Body)
    (files : Files Body) : List (Edit Body) :=
  store.cleared jobId call.step files ++ directory.copies (store.base jobId call.step)

/-- Is a put given enough accesses, and nothing in its way? -/
def Finishes (store : CheckpointStore) (jobId : JobId) (call : Put Body) (directory : Directory Body)
    (files : Files Body) : Prop :=
  store.obstructed directory = false ∧
    store.looks + (store.uploads jobId call directory files).length + 1 ≤ call.length

/-- The changes of a put that is cut off. -/
def made (store : CheckpointStore) (jobId : JobId) (call : Put Body) (directory : Directory Body)
    (files : Files Body) : List (Edit Body) :=
  (store.uploads jobId call directory files).take (call.length - store.looks)

/-- The step of the newest checkpoint a store finds. -/
def newestStep (store : CheckpointStore) (codec : Codec Body Text) (jobId : JobId) (files : Files Body) :
    Option Int :=
  match store.latest codec jobId files with
  | .ok (some ref) => some ref.step
  | _ => none

end CheckpointStore

/-- A file taken for a manifest says nothing, or speaks of an older step than the newest. -/
def Outdated (codec : Codec Body Text) (jobId : JobId) (newest : Option Int) (path : String) (body : Body) :
    Prop :=
  ∃ raw ∈ codec.decode body, ∃ read, readManifest codec jobId (parent path) raw = .ok read ∧
    ∀ ref ∈ read, ∃ step ∈ newest, ref.step < step

/-- A put that harms no checkpoint: it finishes with no file that the store takes for a manifest of the
same step or a newer one, or it is cut off before it has changed anything, or else while it writes
another step than the newest and before it has written such a file. -/
def CheckpointStore.Sound (store : CheckpointStore) (codec : Codec Body Text) (jobId : JobId)
    (call : Put Body) (files : Files Body) : Prop :=
  ∀ directory ∈ call.source.directory,
    let newest := store.newestStep codec jobId files
    let base := store.base jobId call.step
    (store.Finishes jobId call directory files → ∀ file ∈ directory.files,
      if ∀ step ∈ newest, step ≤ call.step then
        file.1 ≠ manifest ∧
          (store.lists jobId (child base file.1) →
            Outdated codec jobId (some call.step) (child base file.1) file.2)
      else
        file.1 ≠ manifest → store.lists jobId (child base file.1) →
          Outdated codec jobId newest (child base file.1) file.2) ∧
    (¬ store.Finishes jobId call directory files →
      store.made jobId call directory files = [] ∨
        (call.step ∉ newest ∧ ∀ edit ∈ store.made jobId call directory files,
          match edit with
          | .write path body => store.lists jobId path → Outdated codec jobId newest path body
          | .remove _ => True))

/-- Each put of a sequence harms no checkpoint. -/
def CheckpointStore.AllSound (store : CheckpointStore) (codec : Codec Body Text) (jobId : JobId) :
    List (Put Body) → Files Body → Prop
  | [], _ => True
  | call :: calls, files =>
      store.Sound codec jobId call files ∧
        store.AllSound codec jobId calls ((store.program codec jobId call).run call.length files).2

/-! ### What a manifest says -/

theorem parse_manifestBody (codec : Codec Body Text) (jobId : JobId) (key : String) (files : List String)
    (step : Int) (moment : Time) (total : Nat) :
    parseManifest codec jobId key (manifestBody codec files step moment total) =
      .ok { jobId, step, key, writtenAt := moment
            files := (files.insertionSort (· ≤ ·)).map some
            bytes := total } := by
  have names : ((files.insertionSort (· ≤ ·)).map Json.text).map Json.asText =
      (files.insertionSort (· ≤ ·)).map some := by
    rw [List.map_map]
    rfl
  unfold parseManifest manifestBody
  rw [codec.loads_dumps]
  simp only [Json.manifest, fieldOf, List.lookup_cons, Codec.toInt, Json.toTuple, bind, Except.bind]
  simp [codec.fromIso_toIso, names]

/-- What reading the content of a manifest comes to. -/
def reading (codec : Codec Body Text) (jobId : JobId) (found : String × Body) :
    Except Fault (Option CheckpointRef) := do
  let raw ← match codec.decode found.2 with
    | some raw => .ok raw
    | none => .error .unicode
  readManifest codec jobId found.1 raw

theorem reading_manifest (codec : Codec Body Text) (jobId : JobId) (key : String)
    (directory : Directory Body) (step : Int) (moment : Time) :
    reading codec jobId (key, directory.manifest codec step moment) =
      .ok (some (directory.ref codec jobId step key moment)) := by
  unfold reading Directory.manifest
  rw [codec.decode_encode]
  show readManifest codec jobId key _ = _
  rw [readManifest, parse_manifestBody]
  rfl

theorem Outdated.reading {codec : Codec Body Text} {jobId : JobId} {newest : Option Int} {path : String}
    {body : Body} (outdated : Outdated codec jobId newest path body) :
    ∃ read, Broker.reading codec jobId (parent path, body) = .ok read ∧
      ∀ ref ∈ read, ∃ step ∈ newest, ref.step < step := by
  obtain ⟨raw, text, read, spoken, older⟩ := outdated
  refine ⟨read, ?_, older⟩
  unfold Broker.reading
  rw [Option.mem_def.mp text]
  exact spoken

theorem Outdated.newer {codec : Codec Body Text} {jobId : JobId} {one two : Option Int} {path : String}
    {body : Body} (outdated : Outdated codec jobId one path body)
    (newer : ∀ step ∈ one, ∃ later ∈ two, step ≤ later) : Outdated codec jobId two path body := by
  obtain ⟨raw, text, read, spoken, older⟩ := outdated
  refine ⟨raw, text, read, spoken, fun ref member => ?_⟩
  obtain ⟨step, first, below⟩ := older ref member
  obtain ⟨later, second, atLeast⟩ := newer step first
  exact ⟨later, second, by omega⟩

/-- The newer of two checkpoints, if both are there; the first when they are of one step. -/
def newer (best : Option CheckpointRef) : Option CheckpointRef → Option CheckpointRef
  | none => best
  | some ref => if best.all fun other => other.step < ref.step then some ref else best

theorem newestOf_fold (codec : Codec Body Text) (jobId : JobId) (manifests : List (String × Body)) :
    newestOf codec jobId manifests =
      manifests.foldlM (fun best found => (newer best) <$> reading codec jobId found) none := by
  unfold newestOf
  congr 1
  funext best found
  unfold reading
  cases codec.decode found.2 with
  | none => rfl
  | some raw =>
      show (readManifest codec jobId found.1 raw >>= _) = newer best <$> readManifest codec jobId found.1 raw
      cases readManifest codec jobId found.1 raw with
      | error fault => rfl
      | ok read => cases read <;> rfl

/-- Among manifests of which one speaks of a checkpoint and the others of older ones, that checkpoint is
found. -/
theorem newestOf_eq {codec : Codec Body Text} {jobId : JobId} {manifests : List (String × Body)}
    {newest : Option CheckpointRef}
    (each : ∀ found ∈ manifests, ∃ read, reading codec jobId found = .ok read ∧
      ∀ ref ∈ read, ∃ top ∈ newest, ref = top ∨ ref.step < top.step)
    (present : ∀ top ∈ newest, ∃ found ∈ manifests, reading codec jobId found = .ok (some top)) :
    newestOf codec jobId manifests = .ok newest := by
  -- On the way the best so far is nothing, an older checkpoint, or the newest one, and then it stays.
  have folded : ∀ (best : Option CheckpointRef) (manifests : List (String × Body)),
      (∀ found ∈ manifests, ∃ read, reading codec jobId found = .ok read ∧
        ∀ ref ∈ read, ∃ top ∈ newest, ref = top ∨ ref.step < top.step) →
      (∀ ref ∈ best, ∃ top ∈ newest, ref = top ∨ ref.step < top.step) →
      (∀ top ∈ newest, best = some top ∨ ∃ found ∈ manifests,
        reading codec jobId found = .ok (some top)) →
      manifests.foldlM (fun best found => (newer best) <$> reading codec jobId found) best =
        .ok newest := by
    intro best manifests
    induction manifests generalizing best with
    | nil =>
        intro _ below here
        refine congrArg Except.ok ?_
        cases newest with
        | none =>
            cases best with
            | none => rfl
            | some ref =>
                obtain ⟨top, absent, _⟩ := below ref rfl
                cases absent
        | some top =>
            rcases here top rfl with same | ⟨_, member, _⟩
            · exact same
            · cases member
    | cons found manifests inductionHypothesis =>
        intro each below here
        obtain ⟨read, readable, older⟩ := each found List.mem_cons_self
        rw [List.foldlM_cons, readable]
        refine inductionHypothesis (newer best read)
          (fun other member => each other (List.mem_cons_of_mem _ member)) ?_ ?_
        · intro ref kept
          cases read with
          | none => exact below ref kept
          | some fresh =>
              simp only [newer] at kept
              split at kept
              · cases kept
                exact older ref rfl
              · exact below ref kept
        · intro top newestTop
          rcases here top newestTop with same | ⟨other, member, speaks⟩
          · refine .inl ?_
            subst same
            cases read with
            | none => rfl
            | some fresh =>
                obtain ⟨other, otherTop, order⟩ := older fresh rfl
                cases Option.some.inj (newestTop.symm.trans otherTop)
                have notNewer : ¬ top.step < fresh.step := by
                  rcases order with rfl | less <;> omega
                simp [newer, notNewer]
          · rcases List.mem_cons.mp member with rfl | later
            · refine .inl ?_
              cases readable.symm.trans speaks
              have takes : best.all (fun other => decide (other.step < top.step)) = true ∨
                  best = some top := by
                cases best with
                | none => exact .inl rfl
                | some ref =>
                    obtain ⟨other, otherTop, order⟩ := below ref rfl
                    cases Option.some.inj (newestTop.symm.trans otherTop)
                    rcases order with rfl | less
                    · exact .inr rfl
                    · exact .inl (by simpa using less)
              rcases takes with all | same
              · simp [newer, all]
              · simp [newer, same]
            · exact .inr ⟨other, later, speaks⟩
  rw [newestOf_fold]
  refine folded none manifests each (fun ref member => by cases member) fun top newestTop => ?_
  exact .inr (present top newestTop)

/-! ### What a store lists -/

namespace CheckpointStore

/-- The manifests `latest` reads. -/
def found (jobId : JobId) (files : Files Body) : CheckpointStore → List (String × Body)
  | onDisk store =>
      let jobRoot := child store.root jobId
      let candidates := (files.paths.filterMap (entryOf jobRoot)).dedup.insertionSort (· ≤ ·)
      candidates.filterMap fun candidate =>
        (files.find (child (child jobRoot candidate) manifest)).map fun body =>
          (child jobRoot candidate, body)
  | inBucket store =>
      (store.manifests jobId files).filterMap fun key =>
        (files.find key).map fun body => (parent key, body)

theorem latest_eq (store : CheckpointStore) (codec : Codec Body Text) (jobId : JobId)
    (files : Files Body) :
    store.latest codec jobId files = newestOf codec jobId (store.found jobId files) := by
  cases store <;> rfl

theorem entryOf_free {directory path entry : String} (entered : entryOf directory path = some entry) :
    '/' ∉ entry.toList := by
  unfold entryOf at entered
  split at entered
  · cases entered
    rw [String.toList_ofList]
    intro member
    simpa using List.mem_takeWhile_imp member
  · cases entered

/-- The pages of a listing come to the whole of it. -/
theorem pages_eq {keys : List String} {turns token : Nat}
    (enough : keys.length < token + turns * S3CheckpointStore.pageSize) :
    S3CheckpointStore.pages keys turns token =
      (keys.drop token).filter fun key => manifest.toList.isSuffixOf key.toList := by
  induction turns generalizing token with
  | zero =>
      rw [List.drop_eq_nil_of_le (by omega)]
      rfl
  | succ turns inductionHypothesis =>
      rw [Nat.add_mul, Nat.one_mul] at enough
      unfold S3CheckpointStore.pages
      dsimp only
      split
      · rw [inductionHypothesis (by omega), ← List.filter_append, ← List.drop_drop,
          List.take_append_drop]
      · next last =>
        rw [List.take_of_length_le (by rw [List.length_drop]; omega)]

theorem mem_manifests {store : S3CheckpointStore} {jobId : JobId} {files : Files Body} {key : String} :
    key ∈ store.manifests jobId files ↔ key ∈ files.paths ∧ (inBucket store).lists jobId key = true := by
  unfold S3CheckpointStore.manifests
  dsimp only
  rw [pages_eq (by unfold S3CheckpointStore.pageSize; omega), List.drop_zero, List.mem_filter,
    List.mem_insertionSort, List.mem_filter]
  simp only [lists, Bool.and_eq_true]
  tauto

/-- What `latest` reads is what is under the paths the store takes for manifests. -/
theorem of_mem_found {store : CheckpointStore} {jobId : JobId} {files : Files Body}
    {entry : String × Body} (member : entry ∈ store.found jobId files) :
    ∃ path, store.lists jobId path = true ∧ files.find path = some entry.2 ∧ entry.1 = parent path := by
  cases store with
  | onDisk store =>
      obtain ⟨candidate, listed, hit⟩ := List.mem_filterMap.mp member
      obtain ⟨body, present, rfl⟩ := Option.map_eq_some_iff.mp hit
      rw [List.mem_insertionSort, List.mem_dedup] at listed
      obtain ⟨path, _, entered⟩ := List.mem_filterMap.mp listed
      have free := entryOf_free entered
      refine ⟨_, ?_, present, (parent_child manifest_free).symm⟩
      simp only [lists, entryOf_child free, decide_true]
  | inBucket store =>
      obtain ⟨key, listed, hit⟩ := List.mem_filterMap.mp member
      obtain ⟨body, present, rfl⟩ := Option.map_eq_some_iff.mp hit
      exact ⟨key, (mem_manifests.mp listed).2, present, rfl⟩

theorem lists_manifest (store : CheckpointStore) (jobId : JobId) (step : Int) :
    store.lists jobId (child (store.base jobId step) manifest) = true := by
  cases store with
  | onDisk store =>
      show (match entryOf (child store.root jobId) (child (child (child store.root jobId) (stepName step))
        manifest) with | some _ => _ | none => _) = true
      rw [entryOf_child (stepName_free step)]
      exact decide_eq_true rfl
  | inBucket store =>
      have inside : within (child store.pre jobId)
          (child (child (child store.pre jobId) (stepName step)) manifest) = true :=
        within_iff.mpr ⟨child (stepName step) manifest, by simp [child, String.append_assoc]⟩
      show (within _ _ && _) = true
      rw [Bool.and_eq_true]
      refine ⟨inside, List.isSuffixOf_iff_suffix.mpr ?_⟩
      rw [toList_child]
      exact (List.suffix_cons _ _).trans (List.suffix_append _ _)

theorem within_base {store : CheckpointStore} {jobId : JobId} {path : String}
    (listed : store.lists jobId path = true) : within (child store.root jobId) path = true := by
  cases store with
  | onDisk store =>
      simp only [lists] at listed
      split at listed
      · next entry entered => exact entryOf_within entered
      · cases listed
  | inBucket store => exact (Bool.and_eq_true _ _ ▸ listed).1

/-- The manifest of a step is read. -/
theorem mem_found {store : CheckpointStore} {jobId : JobId} {files : Files Body} {step : Int} {body : Body}
    (present : files.find (child (store.base jobId step) manifest) = some body) :
    (store.base jobId step, body) ∈ store.found jobId files := by
  have path := Files.mem_paths.mpr ⟨body, present⟩
  cases store with
  | onDisk store =>
      refine List.mem_filterMap.mpr ⟨stepName step, ?_, ?_⟩
      · rw [List.mem_insertionSort, List.mem_dedup]
        exact List.mem_filterMap.mpr ⟨_, path, entryOf_child (stepName_free step) manifest⟩
      · exact Option.map_eq_some_iff.mpr ⟨body, present, rfl⟩
  | inBucket store =>
      refine List.mem_filterMap.mpr ⟨_, mem_manifests.mpr ⟨path, lists_manifest (.inBucket store) jobId step⟩, ?_⟩
      refine Option.map_eq_some_iff.mpr ⟨body, present, ?_⟩
      rw [parent_child manifest_free]

/-! ### What a put leaves -/

section Puts

variable {store : CheckpointStore} {codec : Codec Body Text} {jobId : JobId} {call : Put Body}
  {directory : Directory Body} {files : Files Body}

/-- The change that publishes a checkpoint. -/
def publication (store : CheckpointStore) (codec : Codec Body Text) (jobId : JobId) (call : Put Body)
    (directory : Directory Body) : Edit Body :=
  .write (child (store.base jobId call.step) manifest) (directory.manifest codec call.step call.moment)

/-- Once a store has looked, a put makes its changes. -/
theorem run_program (source : call.source.directory = some directory) (more : Nat) :
    (store.program codec jobId call).run (store.looks + more) files =
      Program.run more (Filing.edits (store.uploads jobId call directory files) >>= fun _ =>
        if store.obstructed directory then
          .fail (.isADirectory (child (store.base jobId call.step) manifest))
        else Filing.edits [store.publication codec jobId call directory] >>= fun _ =>
          pure (directory.ref codec jobId call.step (store.base jobId call.step) call.moment)) files := by
  cases store with
  | onDisk store =>
      unfold CheckpointStore.program CheckpointStore.put LocalCheckpointStore.put uploads
      rw [source, Filing.edits_append, bind_assoc, looks, Nat.add_comm]
      rfl
  | inBucket store =>
      unfold CheckpointStore.program CheckpointStore.put S3CheckpointStore.put
      rw [source, looks, Nat.zero_add]
      rfl

variable (codec) in
/-- A put that finishes makes all its changes and answers. -/
theorem program_finished (source : call.source.directory = some directory)
    (finishes : store.Finishes jobId call directory files) :
    ((store.program codec jobId call).run call.length files).1.answer.isSome = true ∧
      ((store.program codec jobId call).run call.length files).2 =
        (files.editAll (store.uploads jobId call directory files)).edit
          (store.publication codec jobId call directory) := by
  obtain ⟨free, enough⟩ := finishes
  obtain ⟨more, same⟩ := Nat.exists_eq_add_of_le (show store.looks ≤ call.length by omega)
  rw [same, run_program source, free]
  obtain ⟨answered, left⟩ := (Filing.run_publish (store.uploads jobId call directory files)
    (store.publication codec jobId call directory)
    (directory.ref codec jobId call.step (store.base jobId call.step) call.moment) more files).2 (by omega)
  exact ⟨Option.isSome_iff_exists.mpr ⟨_, answered⟩, left⟩

variable (codec) in
/-- A put that does not finish has made the first of its changes and has no answer. -/
theorem program_cut (source : call.source.directory = some directory)
    (cut : ¬ store.Finishes jobId call directory files) :
    ((store.program codec jobId call).run call.length files).1.answer = none ∧
      ((store.program codec jobId call).run call.length files).2 =
        files.editAll (store.made jobId call directory files) := by
  unfold made
  rcases Nat.lt_or_ge call.length store.looks with short | looked
  · have stopped : call.length = 0 ∧ ∃ disk, store = onDisk disk := by
      cases store with
      | onDisk disk => exact ⟨Nat.lt_one_iff.mp short, disk, rfl⟩
      | inBucket bucket => cases short
    obtain ⟨zero, disk, rfl⟩ := stopped
    rw [zero, Nat.zero_sub, List.take_zero]
    unfold CheckpointStore.program CheckpointStore.put LocalCheckpointStore.put
    rw [source]
    exact ⟨rfl, rfl⟩
  · obtain ⟨more, same⟩ := Nat.exists_eq_add_of_le looked
    rw [same, run_program source, Nat.add_sub_cancel_left]
    cases blocked : store.obstructed directory with
    | true => exact Filing.run_blocked _ _ more files
    | false =>
        have early : more ≤ (store.uploads jobId call directory files).length := by
          by_contra late
          exact cut ⟨blocked, by omega⟩
        exact (Filing.run_publish (store.uploads jobId call directory files)
          (store.publication codec jobId call directory)
          (directory.ref codec jobId call.step (store.base jobId call.step) call.moment) more files).1 early

/-- All that a put changes before the manifest is at its own step. -/
theorem uploads_place {edit : Edit Body} (member : edit ∈ store.uploads jobId call directory files) :
    ∃ name, edit.path = child (store.base jobId call.step) name ∧
      (edit = .remove edit.path ∨ ∃ file ∈ directory.files, name = file.1 ∧ edit = .write edit.path file.2) := by
  rcases List.mem_append.mp member with clears | copies
  · cases store with
    | onDisk store =>
        obtain ⟨path, inside, rfl⟩ := List.mem_map.mp clears
        obtain ⟨name, same⟩ := within_iff.mp (List.of_mem_filter inside)
        exact ⟨name, same, .inl rfl⟩
    | inBucket store => cases clears
  · obtain ⟨file, present, rfl⟩ := List.mem_map.mp copies
    exact ⟨file.1, rfl, .inr ⟨file, present, rfl, rfl⟩⟩

end Puts

/-! ### The newest checkpoint -/

/-- What a store holds: the newest checkpoint has its manifest and its files, and whatever else the store
takes for a manifest says nothing or speaks of an older step. -/
structure Holds (store : CheckpointStore) (codec : Codec Body Text) (jobId : JobId)
    (newest : Option (Saved Body)) (files : Files Body) : Prop where
  published : ∀ saved ∈ newest, files.find (child (store.base jobId saved.step) manifest) =
    some (saved.directory.manifest codec saved.step saved.moment)
  copies : ∀ saved ∈ newest, ∀ file ∈ saved.directory.files,
    files.find (child (store.base jobId saved.step) file.1) = some file.2
  others : ∀ path body, store.lists jobId path = true → files.find path = some body →
    (∃ saved ∈ newest, path = child (store.base jobId saved.step) manifest) ∨
      Outdated codec jobId (newest.map Saved.step) path body

/-- The reference to a saved checkpoint. -/
def refTo (store : CheckpointStore) (codec : Codec Body Text) (jobId : JobId) (saved : Saved Body) :
    CheckpointRef :=
  saved.directory.ref codec jobId saved.step (store.base jobId saved.step) saved.moment

section Newest

variable {store : CheckpointStore} {codec : Codec Body Text} {jobId : JobId}
  {newest : Option (Saved Body)} {files : Files Body}

/-- The store finds the newest checkpoint. -/
theorem Holds.latest (holds : Holds store codec jobId newest files) :
    store.latest codec jobId files = .ok (newest.map (store.refTo codec jobId)) := by
  have spoken : ∀ saved ∈ newest,
      reading codec jobId (store.base jobId saved.step, saved.directory.manifest codec saved.step saved.moment) =
        .ok (some (store.refTo codec jobId saved)) := fun saved _ => reading_manifest codec jobId _ _ _ _
  rw [latest_eq]
  refine newestOf_eq ?_ fun top newestTop => ?_
  · rintro ⟨key, body⟩ member
    obtain ⟨path, listed, present, rfl⟩ := of_mem_found member
    rcases holds.others path body listed present with ⟨saved, top, rfl⟩ | outdated
    · have same : saved.directory.manifest codec saved.step saved.moment = body :=
        Option.some.inj ((holds.published saved top).symm.trans present)
      rw [parent_child manifest_free, ← same, spoken saved top]
      refine ⟨_, rfl, fun ref same => ?_⟩
      cases same
      exact ⟨_, Option.map_eq_some_iff.mpr ⟨saved, top, rfl⟩, .inl rfl⟩
    · obtain ⟨read, spoken, older⟩ := outdated.reading
      refine ⟨read, spoken, fun ref told => ?_⟩
      obtain ⟨step, top, less⟩ := older ref told
      obtain ⟨saved, newestSaved, rfl⟩ := Option.map_eq_some_iff.mp top
      exact ⟨_, Option.map_eq_some_iff.mpr ⟨saved, newestSaved, rfl⟩, .inr less⟩
  · obtain ⟨saved, top, rfl⟩ := Option.map_eq_some_iff.mp newestTop
    exact ⟨_, mem_found (holds.published saved top), spoken saved top⟩

theorem Holds.newestStep (holds : Holds store codec jobId newest files) :
    store.newestStep codec jobId files = newest.map Saved.step := by
  unfold CheckpointStore.newestStep
  rw [holds.latest]
  cases newest <;> rfl

/-- Files that are all there are fetched in the order in which they are named. -/
theorem fetch_names {key : String} {pairs : List (String × Body)}
    (present : ∀ file ∈ pairs, files.find (child key file.1) = some file.2) :
    ((pairs.map Prod.fst).map some).mapM (fun name =>
        match name with
        | none => .error (.notAName key)
        | some name =>
            match files.find (child key name) with
            | some body => .ok (name, body)
            | none => .error (.missing key name)) =
      (.ok pairs : Except CheckpointError (List (String × Body))) := by
  induction pairs with
  | nil => rfl
  | cons file pairs inductionHypothesis =>
      have here := present file List.mem_cons_self
      have rest := inductionHypothesis fun other member => present other (List.mem_cons_of_mem _ member)
      simp only [List.map_cons, List.mapM_cons, here]
      rw [rest]
      rfl

/-- What the store fetches of a checkpoint whose files are all there is the directory that was saved. -/
theorem fetch_saved {saved : Saved Body}
    (published : files.find (child (store.base jobId saved.step) manifest) =
      some (saved.directory.manifest codec saved.step saved.moment))
    (copies : ∀ file ∈ saved.directory.files,
      files.find (child (store.base jobId saved.step) file.1) = some file.2) :
    ∃ restored, store.fetch (store.refTo codec jobId saved) files = .ok restored ∧
      restored.Perm saved.directory.files := by
  have names : (saved.directory.files.map Prod.fst).insertionSort (· ≤ ·) =
      (saved.directory.files.insertionSort fun one two => one.1 ≤ two.1).map Prod.fst :=
    (List.map_insertionSort (fun one two : String × Body => one.1 ≤ two.1) (· ≤ ·) Prod.fst _
      fun _ _ _ _ => Iff.rfl).symm
  have listed : (store.refTo codec jobId saved).files =
      ((saved.directory.files.insertionSort fun one two => one.1 ≤ two.1).map Prod.fst).map some := by
    rw [← names]
    rfl
  have present : ∀ file ∈ saved.directory.files.insertionSort fun one two => one.1 ≤ two.1,
      files.find (child (store.base jobId saved.step) file.1) = some file.2 := fun file member =>
    copies file ((List.mem_insertionSort (fun one two : String × Body => one.1 ≤ two.1)).mp member)
  refine ⟨saved.directory.files.insertionSort fun one two => one.1 ≤ two.1, ?_,
    List.perm_insertionSort _ _⟩
  cases store with
  | onDisk store =>
      show LocalCheckpointStore.fetch _ files = _
      unfold LocalCheckpointStore.fetch
      have visible : (files.find (child ((onDisk store).refTo codec jobId saved).key manifest)).isSome =
          true := Option.isSome_iff_exists.mpr ⟨_, published⟩
      rw [if_pos visible, listed]
      exact fetch_names present
  | inBucket store =>
      show S3CheckpointStore.fetch _ files = _
      unfold S3CheckpointStore.fetch
      rw [listed]
      exact fetch_names present

/-- What the store fetches of the newest checkpoint is the directory that was saved. -/
theorem Holds.fetch (holds : Holds store codec jobId newest files) {saved : Saved Body}
    (top : saved ∈ newest) :
    ∃ restored, store.fetch (store.refTo codec jobId saved) files = .ok restored ∧
      restored.Perm saved.directory.files :=
  fetch_saved (holds.published saved top) (holds.copies saved top)

/-- The manifest of an older step is outdated. -/
theorem outdated_manifest {saved : Saved Body} {step : Int} (older : saved.step < step) (newest : step ∈ top)
    (path : String) :
    Outdated codec jobId top path (saved.directory.manifest codec saved.step saved.moment) := by
  refine ⟨_, codec.decode_encode _, some (saved.directory.ref codec jobId saved.step (parent path) saved.moment),
    ?_, fun ref same => ?_⟩
  · rw [readManifest, parse_manifestBody]
    rfl
  · cases same
    exact ⟨step, newest, older⟩

/-- What a finished put leaves under the paths of other steps, under its manifest and its files. -/
structure Finished (store : CheckpointStore) (codec : Codec Body Text) (jobId : JobId) (saved : Saved Body)
    (files left : Files Body) : Prop where
  apart : ∀ path, (∀ name, path ≠ child (store.base jobId saved.step) name) →
    left.find path = files.find path
  published : left.find (child (store.base jobId saved.step) manifest) =
    some (saved.directory.manifest codec saved.step saved.moment)
  copies : ∀ file ∈ saved.directory.files, file.1 ≠ manifest →
    left.find (child (store.base jobId saved.step) file.1) = some file.2
  found : ∀ path body, left.find path = some body →
    path = child (store.base jobId saved.step) manifest ∨ files.find path = some body ∨
      ∃ file ∈ saved.directory.files, path = child (store.base jobId saved.step) file.1 ∧ body = file.2

theorem finished_left {call : Put Body} {directory : Directory Body} :
    Finished store codec jobId ⟨call.step, directory, call.moment⟩ files
      ((files.editAll (store.uploads jobId call directory files)).edit
        (store.publication codec jobId call directory)) where
  apart := by
    intro path apart
    rw [Files.find_edit_other (apart manifest), Files.find_editAll_other fun edit member same => ?_]
    obtain ⟨name, placed, _⟩ := uploads_place member
    exact apart name (same.trans placed)
  published := (Files.find_write _ _ _ _).trans (if_pos rfl)
  copies := by
    intro file member other
    have distinct : ((directory.copies (store.base jobId call.step)).map Edit.path).Nodup := by
      unfold Directory.copies
      rw [List.map_map]
      have names : (Edit.path ∘ fun file : String × Body => Edit.write (child (store.base jobId call.step) file.1)
          file.2) = child (store.base jobId call.step) ∘ Prod.fst := rfl
      rw [names, ← List.map_map]
      exact directory.distinct.map fun _ _ => child_injective
    rw [Files.find_edit_other fun same => other (child_injective same), uploads, Files.editAll_append]
    exact Files.find_editAll_write distinct (List.mem_map.mpr ⟨file, member, rfl⟩)
  found := by
    intro path body found
    by_cases own : path = child (store.base jobId call.step) manifest
    · exact .inl own
    · rw [Files.find_edit_other own] at found
      rcases Files.of_find_editAll found with before | written
      · exact .inr (.inl before)
      · obtain ⟨name, placed, removed | ⟨file, member, rfl, copied⟩⟩ := uploads_place written
        · cases removed
        · cases copied
          exact .inr (.inr ⟨file, member, placed, rfl⟩)

/-- A sound put keeps the newest checkpoint, or completes and becomes it. -/
theorem Holds.put {call : Put Body} (holds : Holds store codec jobId newest files)
    (sound : store.Sound codec jobId call files) :
    let left := (store.program codec jobId call).run call.length files
    ∃ later, Holds store codec jobId later left.2 ∧
      (∀ saved ∈ newest, ∃ next ∈ later, saved.step ≤ next.step) ∧
      (later = newest ∨ left.1.answer.isSome = true ∧ ∃ directory ∈ call.source.directory,
        later = some ⟨call.step, directory, call.moment⟩) := by
  intro left
  cases source : call.source.directory with
  | none =>
      have same : left.2 = files := by
        show ((store.program codec jobId call).run call.length files).2 = files
        have failed : store.program codec jobId call = .fail (.notADirectory call.source.path) := by
          cases store with
          | onDisk store =>
              unfold CheckpointStore.program CheckpointStore.put LocalCheckpointStore.put
              rw [source]
          | inBucket store =>
              unfold CheckpointStore.program CheckpointStore.put S3CheckpointStore.put
              rw [source]
        rw [failed, Program.run_fail]
      exact ⟨newest, same ▸ holds, fun saved top => ⟨saved, top, le_rfl⟩, .inl rfl⟩
  | some directory =>
      obtain ⟨finishing, cutting⟩ := sound directory source
      rw [holds.newestStep] at finishing cutting
      by_cases finishes : store.Finishes jobId call directory files
      · obtain ⟨answered, leaves⟩ := program_finished codec source finishes
        have finished : Finished store codec jobId ⟨call.step, directory, call.moment⟩ files left.2 :=
          leaves ▸ finished_left
        by_cases newer : ∀ step ∈ newest.map Saved.step, step ≤ call.step
        · -- The put becomes the newest checkpoint.
          refine ⟨some ⟨call.step, directory, call.moment⟩, ⟨?_, ?_, ?_⟩, ?_, .inr ⟨answered, directory, rfl, rfl⟩⟩
          · rintro saved ⟨⟩
            exact finished.published
          · rintro saved ⟨⟩ file member
            have fine := finishing finishes file member
            rw [if_pos newer] at fine
            exact finished.copies file member fine.1
          · intro path body listed present
            by_cases own : path = child (store.base jobId call.step) manifest
            · exact .inl ⟨_, rfl, own⟩
            · refine .inr ?_
              rcases finished.found path body present with here | before | ⟨file, member, rfl, rfl⟩
              · exact absurd here own
              · rcases holds.others path body listed before with ⟨saved, top, rfl⟩ | outdated
                · have below := newer saved.step (Option.map_eq_some_iff.mpr ⟨saved, top, rfl⟩)
                  have apart : saved.step ≠ call.step := fun same => own (by rw [same])
                  rw [← Option.some.inj ((holds.published saved top).symm.trans before)]
                  exact outdated_manifest (lt_of_le_of_ne below apart) rfl _
                · exact outdated.newer fun step member => ⟨call.step, rfl, newer step member⟩
              · have fine := finishing finishes file member
                rw [if_pos newer] at fine
                exact fine.2 listed
          · intro saved top
            exact ⟨_, rfl, newer saved.step (Option.map_eq_some_iff.mpr ⟨saved, top, rfl⟩)⟩
        · -- A newer checkpoint is there, and stays.
          push Not at newer
          obtain ⟨step, top, above⟩ := newer
          obtain ⟨saved, newestSaved, rfl⟩ := Option.map_eq_some_iff.mp top
          have elsewhere : ∀ other ∈ newest, ∀ name also,
              child (store.base jobId other.step) name ≠ child (store.base jobId call.step) also := by
            intro other member name also same
            cases Option.some.inj (newestSaved.symm.trans member)
            exact absurd (place_injective same).1 (by omega)
          refine ⟨newest, ⟨?_, ?_, ?_⟩, fun other member => ⟨other, member, le_rfl⟩, .inl rfl⟩
          · intro other member
            rw [finished.apart _ fun also => elsewhere other member _ also]
            exact holds.published other member
          · intro other member file present
            rw [finished.apart _ fun also => elsewhere other member _ also]
            exact holds.copies other member file present
          · intro path body listed present
            have outdatedOwn : ∀ body, left.2.find (child (store.base jobId call.step) manifest) = some body →
                Outdated codec jobId (newest.map Saved.step)
                  (child (store.base jobId call.step) manifest) body := by
              intro body present
              rw [← Option.some.inj (finished.published.symm.trans present)]
              exact outdated_manifest above top _
            rcases finished.found path body present with rfl | before | ⟨file, member, rfl, rfl⟩
            · exact .inr (outdatedOwn body present)
            · exact holds.others path body listed before
            · by_cases named : file.1 = manifest
              · rw [named] at present ⊢
                exact .inr (outdatedOwn file.2 present)
              · have fine := finishing finishes file member
                rw [if_neg fun all => absurd (all saved.step top) (by omega)] at fine
                exact .inr (fine named listed)
      · obtain ⟨_, leaves⟩ := program_cut codec source finishes
        refine ⟨newest, ?_, fun saved top => ⟨saved, top, le_rfl⟩, .inl rfl⟩
        show Holds store codec jobId newest left.2
        rw [leaves]
        rcases cutting finishes with idle | ⟨other, harmless⟩
        · rw [idle]
          exact holds
        · have apart : ∀ saved ∈ newest, ∀ name, ∀ edit ∈ store.made jobId call directory files,
              child (store.base jobId saved.step) name ≠ edit.path := by
            intro saved top name edit member same
            obtain ⟨also, placed, _⟩ := uploads_place (List.mem_of_mem_take member)
            refine other ?_
            rw [← (place_injective (same.trans placed)).1]
            exact Option.map_eq_some_iff.mpr ⟨saved, top, rfl⟩
          refine ⟨fun saved top => ?_, fun saved top file member => ?_, fun path body listed present => ?_⟩
          · rw [Files.find_editAll_other (apart saved top manifest)]
            exact holds.published saved top
          · rw [Files.find_editAll_other (apart saved top file.1)]
            exact holds.copies saved top file member
          · rcases Files.of_find_editAll present with before | written
            · exact holds.others path body listed before
            · exact .inr (harmless _ written listed)

/-- A run of sound puts, each cut off anywhere. -/
theorem Holds.run {calls : List (Put Body)} (holds : Holds store codec jobId newest files)
    (sound : store.AllSound codec jobId calls files) :
    ∃ later, Holds store codec jobId later (store.after codec jobId calls files) ∧
      (∀ saved ∈ newest, ∃ next ∈ later, saved.step ≤ next.step) ∧
      (later = newest ∨ ∃ call ∈ store.completed codec jobId calls files,
        ∃ directory ∈ call.source.directory, later = some ⟨call.step, directory, call.moment⟩) := by
  induction calls generalizing newest files with
  | nil => exact ⟨newest, holds, fun saved top => ⟨saved, top, le_rfl⟩, .inl rfl⟩
  | cons call calls inductionHypothesis =>
      obtain ⟨middle, held, rises, became⟩ := holds.put sound.1
      obtain ⟨later, kept, climbs, whose⟩ := inductionHypothesis held sound.2
      refine ⟨later, kept, fun saved top => ?_, ?_⟩
      · obtain ⟨next, here, first⟩ := rises saved top
        obtain ⟨last, there, second⟩ := climbs next here
        exact ⟨last, there, first.trans second⟩
      · rcases whose with same | ⟨other, completes, directory, source, saved⟩
        · rcases became with still | ⟨answered, directory, source, saved⟩
          · exact .inl (same.trans still)
          · refine .inr ⟨call, ?_, directory, source, same.trans saved⟩
            rw [completed, if_pos answered]
            exact List.mem_append_left _ List.mem_cons_self
        · exact .inr ⟨other, List.mem_append_right _ completes, directory, source, saved⟩

theorem after_append (store : CheckpointStore) (codec : Codec Body Text) (jobId : JobId)
    (one two : List (Put Body)) (files : Files Body) :
    store.after codec jobId (one ++ two) files =
      store.after codec jobId two (store.after codec jobId one files) := by
  unfold CheckpointStore.after
  rw [List.map_append, Program.sequence_append]

theorem allSound_append {one two : List (Put Body)} (sound : store.AllSound codec jobId (one ++ two) files) :
    store.AllSound codec jobId one files ∧
      store.AllSound codec jobId two (store.after codec jobId one files) := by
  induction one generalizing files with
  | nil => exact ⟨trivial, sound⟩
  | cons call one inductionHypothesis =>
      obtain ⟨first, rest⟩ := inductionHypothesis sound.2
      exact ⟨⟨sound.1, first⟩, rest⟩

end Newest

end CheckpointStore

/-! ### What is restored -/

/-- From a store with nothing of the job, along a run of sound puts, each cut off anywhere: the newest
checkpoint that is found is one of which all files are restored as a completed put saved them, and its
step never goes down. -/
theorem restores_completed_put (store : CheckpointStore) (codec : Codec Body Text) (jobId : JobId)
    (calls : List (Put Body)) (files : Files Body)
    (nothing : ∀ path, within (child store.root jobId) path = true → files.find path = none)
    (sound : store.AllSound codec jobId calls files) :
    (∀ before after, calls = before ++ after →
      let left := store.after codec jobId before files
      store.latest codec jobId left = .ok none ∨
        ∃ ref, store.latest codec jobId left = .ok (some ref) ∧
          ∃ call ∈ store.completed codec jobId before files, ∃ directory ∈ call.source.directory,
            ∃ restored, store.fetch ref left = .ok restored ∧ restored.Perm directory.files) ∧
      ∀ before middle after ref, calls = before ++ middle ++ after →
        store.latest codec jobId (store.after codec jobId before files) = .ok (some ref) →
          ∃ later, store.latest codec jobId (store.after codec jobId (before ++ middle) files) =
              .ok (some later) ∧ ref.step ≤ later.step := by
  have empty : store.Holds codec jobId none files := by
    refine ⟨fun saved top => (Option.not_mem_none _ top).elim,
      fun saved top => (Option.not_mem_none _ top).elim, fun path body listed present => ?_⟩
    rw [nothing path (CheckpointStore.within_base listed)] at present
    cases present
  constructor
  · rintro before after rfl
    obtain ⟨newest, holds, _, whose⟩ := empty.run (CheckpointStore.allSound_append sound).1
    rcases whose with rfl | ⟨call, completes, directory, source, rfl⟩
    · exact .inl holds.latest
    · refine .inr ⟨_, holds.latest, call, completes, directory, source, ?_⟩
      exact holds.fetch rfl
  · rintro before middle after ref rfl found
    obtain ⟨first, rest⟩ := CheckpointStore.allSound_append (CheckpointStore.allSound_append sound).1
    obtain ⟨newest, holds, _, _⟩ := empty.run first
    obtain ⟨last, held, rises, _⟩ := holds.run rest
    rw [holds.latest] at found
    obtain ⟨saved, top, rfl⟩ := Option.map_eq_some_iff.mp (Except.ok.inj found)
    obtain ⟨next, here, climbs⟩ := rises saved top
    refine ⟨store.refTo codec jobId next, ?_, climbs⟩
    rw [CheckpointStore.after_append, held.latest, Option.mem_def.mp here]
    rfl

/-! ### Deciding -/

instance (codec : Codec Body Text) (jobId : JobId) (newest : Option Int) (path : String) (body : Body) :
    Decidable (Outdated codec jobId newest path body) :=
  match text : codec.decode body with
  | none => isFalse fun ⟨raw, member, _⟩ => Option.not_mem_none raw (text ▸ member)
  | some raw =>
      match spoken : readManifest codec jobId (parent path) raw with
      | .error fault => isFalse fun ⟨other, member, read, told, _⟩ => by
          cases Option.some.inj (text.symm.trans member)
          exact absurd (spoken.symm.trans told) nofun
      | .ok read =>
          if older : ∀ ref ∈ read, ∃ step ∈ newest, ref.step < step then
            isTrue ⟨raw, text, read, spoken, older⟩
          else isFalse fun ⟨other, member, told, same, below⟩ => by
            cases Option.some.inj (text.symm.trans member)
            cases spoken.symm.trans same
            exact older below

instance (store : CheckpointStore) (jobId : JobId) (call : Put Body) (directory : Directory Body)
    (files : Files Body) : Decidable (store.Finishes jobId call directory files) :=
  inferInstanceAs (Decidable (_ ∧ _))

instance (codec : Codec Body Text) (store : CheckpointStore) (jobId : JobId) (newest : Option Int) :
    DecidablePred fun edit : Edit Body =>
      match edit with
      | .write path body => store.lists jobId path = true → Outdated codec jobId newest path body
      | .remove _ => True
  | .write _ _ => inferInstanceAs (Decidable (_ → _))
  | .remove _ => isTrue trivial

instance (store : CheckpointStore) (codec : Codec Body Text) (jobId : JobId) (call : Put Body)
    (files : Files Body) : Decidable (store.Sound codec jobId call files) :=
  inferInstanceAs (Decidable (∀ directory ∈ call.source.directory, _ ∧ (_ → _ ∨ (_ ∧ _))))

instance decideAllSound (store : CheckpointStore) (codec : Codec Body Text) (jobId : JobId) :
    (calls : List (Put Body)) → (files : Files Body) → Decidable (store.AllSound codec jobId calls files)
  | [], _ => isTrue trivial
  | call :: calls, files =>
      have := decideAllSound store codec jobId calls
        ((store.program codec jobId call).run call.length files).2
      inferInstanceAs (Decidable (_ ∧ _))

/-! ### Two stores that are written to twice -/

/-- A file: a manifest, or data that is no JSON. -/
inductive Sheet where
  | data (content : String)
  | manifest (step : Int) (writtenAt : String) (files : List String) (bytes : Int)
  deriving DecidableEq

namespace Sheet

/-- A number of microseconds in digits. -/
def ofTime (moment : Time) : String :=
  .ofList (if moment < 0 then '-' :: Nat.toDigits 10 moment.natAbs else Nat.toDigits 10 moment.natAbs)

/-- The number of microseconds digits say. -/
def timeOf (text : String) : Option Time :=
  match text.toList with
  | '-' :: digits => some (-(Nat.ofDigitChars 10 digits 0))
  | digits => some (Nat.ofDigitChars 10 digits 0)

theorem timeOf_ofTime (moment : Time) : timeOf (ofTime moment) = some moment := by
  unfold timeOf ofTime
  rw [String.toList_ofList]
  split
  · next digits minus =>
    split at minus
    · next below =>
      cases minus
      rw [Nat.ofDigitChars_ten_toDigits]
      rw [Int.ofNat_natAbs_of_nonpos (le_of_lt below), neg_neg]
    · have sign : '-' ∈ Nat.toDigits 10 moment.natAbs := by rw [minus]; exact List.mem_cons_self
      exact absurd (Nat.isDigit_of_mem_toDigits (by decide) (by decide) sign) (by decide)
  · next unsigned =>
    split
    · next below => exact absurd (if_pos below) (unsigned _)
    · next below =>
      rw [Nat.ofDigitChars_ten_toDigits, Int.natAbs_of_nonneg (not_lt.mp below)]

/-- A manifest as it is dumped. -/
def dumps : Json → Sheet
  | .object [("step", .int step), ("written_at", .text writtenAt), ("files", .array files),
      ("bytes", .int bytes)] => .manifest step writtenAt (files.filterMap Json.asText) bytes
  | _ => .data ""

def loads : Sheet → Option Json
  | .manifest step writtenAt files bytes => some (Json.manifest step writtenAt files bytes)
  | .data _ => none

def stamps : Stamps := ⟨ofTime, timeOf, timeOf_ofTime⟩

def codec : Codec Sheet Sheet where
  toStamps := stamps
  size
    | .data content => content.length
    | .manifest _ _ _ _ => 0
  encode sheet := sheet
  decode := some
  dumps := dumps
  loads := loads
  intOf _ := none
  decode_encode _ := rfl
  loads_dumps step writtenAt files bytes := by
    have names : (files.map Json.text).filterMap Json.asText = files := by
      rw [List.filterMap_map]
      exact List.filterMap_some
    simp [Json.manifest, dumps, loads, names]

end Sheet

/-- A directory with weights and an optimizer of a kind. -/
def Directory.trained (content : String) : Directory Sheet :=
  ⟨[("model.pt", .data content), ("nested/optimizer.pt", .data content)],
    show ["model.pt", "nested/optimizer.pt"].Nodup by decide +kernel⟩

/-- A put of it at a step, cut off after a number of accesses. -/
def Put.trained (step : Int) (content : String) (length : Nat) : Put Sheet :=
  ⟨step, ⟨"work", some (.trained content)⟩, 0, length⟩

/-- The disk and the bucket of the club. -/
def CheckpointStore.disk : CheckpointStore := .onDisk ⟨"/srv/checkpoints"⟩

def CheckpointStore.bucket : CheckpointStore := .inBucket (.init "checkpoints/")

/-- A step that was cut off is saved again after a later one, and the later one is restored. -/
theorem restores_completed_put_again :
    let calls := [Put.trained 5 "a" 9, .trained 7 "b" 2, .trained 9 "c" 9, .trained 7 "d" 9]
    (∃ ref, CheckpointStore.disk.latest Sheet.codec "job"
        (CheckpointStore.disk.after Sheet.codec "job" calls .empty) = .ok (some ref) ∧
      ∃ call ∈ CheckpointStore.disk.completed Sheet.codec "job" calls .empty,
        ∃ directory ∈ call.source.directory, ∃ restored,
          CheckpointStore.disk.fetch ref (CheckpointStore.disk.after Sheet.codec "job" calls .empty) =
            .ok restored ∧ restored.Perm directory.files) ∧
      CheckpointStore.disk.newestStep Sheet.codec "job"
        (CheckpointStore.disk.after Sheet.codec "job" calls .empty) = some 9 := by
  intro calls
  have newest : CheckpointStore.disk.newestStep Sheet.codec "job"
      (CheckpointStore.disk.after Sheet.codec "job" calls .empty) = some 9 := by decide +kernel
  refine ⟨?_, newest⟩
  rcases (restores_completed_put CheckpointStore.disk Sheet.codec "job" calls .empty (fun _ _ => rfl)
    (by decide +kernel)).1 calls [] (List.append_nil _).symm with none | some
  · rw [CheckpointStore.newestStep, none] at newest
    cases newest
  · exact some

/-- In the bucket a put that is cut off after its first file leaves the manifest of the one before, and
what is fetched was saved by neither; on the disk it leaves nothing to find. -/
theorem restores_torn_checkpoint :
    let calls := [Put.trained 5 "old" 9, .trained 5 "new" 1]
    let torn := [("model.pt", Sheet.data "new"), ("nested/optimizer.pt", .data "old")]
    (∃ ref, CheckpointStore.bucket.latest Sheet.codec "job"
        (CheckpointStore.bucket.after Sheet.codec "job" calls .empty) = .ok (some ref) ∧
      CheckpointStore.bucket.fetch ref (CheckpointStore.bucket.after Sheet.codec "job" calls .empty) =
        .ok torn) ∧
      (∀ call ∈ CheckpointStore.bucket.completed Sheet.codec "job" calls .empty,
        ∀ directory ∈ call.source.directory, ¬ torn.Perm directory.files) ∧
      let again := [Put.trained 5 "old" 9, .trained 5 "new" 4]
      CheckpointStore.disk.newestStep Sheet.codec "job"
          (CheckpointStore.disk.after Sheet.codec "job" (again.take 1) .empty) = some 5 ∧
        CheckpointStore.disk.latest Sheet.codec "job"
          (CheckpointStore.disk.after Sheet.codec "job" again .empty) = .ok none := by
  refine ⟨⟨(Directory.trained "old").ref Sheet.codec "job" 5 (CheckpointStore.bucket.base "job" 5) 0,
    by decide +kernel, by decide +kernel⟩, by decide +kernel, by decide +kernel, by decide +kernel⟩

end GpuBroker.Broker
