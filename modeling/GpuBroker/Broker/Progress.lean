/-
This file is the progress of a simulated job as the fake keeps it in a checkpoint
store: one file a checkpoint, with the number of steps done and their sum.

A store that is only written to in this way holds, of each job, a manifest and a
state under every step that was saved, and nothing else. Of such a store each
`put` makes another one with one more step, and what is read back of it is the
state of the highest step, whichever was saved last.
-/
import Mathlib.Data.Set.Finite.Lemmas
import GpuBroker.Broker.Restores
import GpuBroker.Broker.Fake

namespace GpuBroker.Broker

open Library

variable {Body Text : Type}

/-! ### The file of a checkpoint -/

/-- `sum(range(steps))` -/
def sumOfSteps (steps : Int) : Int := ((List.range steps.toNat).map fun done : Nat => (done : Int)).sum

/-- The name of the file. -/
def stateFile : String := "state.json"

/-- The value the fake dumps. -/
def Json.progress (step value : Int) : Json := .object [("step", .int step), ("value", .int value)]

/-- The parts of the standard library that the file goes through. -/
structure ProgressCodec (Body Text : Type) extends Codec Body Text where
  loads_progress : ∀ step value,
    loads (dumps (Json.progress step value)) = some (Json.progress step value)

/-- What reading the file may raise. Of these the fake catches the first kind, which are `OSError`,
`ValueError` and `KeyError`. -/
inductive StateFault where
  | caught
  | typeError
  | overflow
  deriving DecidableEq

/-- `state[name]` -/
def itemOf : Json → String → Except StateFault Json
  | .object fields, name =>
      match fields.lookup name with
      | some value => .ok value
      | none => .error .caught
  | _, _ => .error .typeError

namespace ProgressCodec

variable (codec : ProgressCodec Body Text)

/-- `int(value)` -/
def wholeOf : Json → Except StateFault Int
  | .bool value => .ok (if value then 1 else 0)
  | .int value => .ok value
  | .real whole => .ok whole
  | .infinite => .error .overflow
  | .nan => .error .caught
  | .text value =>
      match codec.intOf value with
      | some number => .ok number
      | none => .error .caught
  | _ => .error .typeError

/-- The state among the files that were fetched. -/
def state (restored : List (String × Body)) : Except StateFault Json :=
  match (restored.lookup stateFile).bind fun body => (codec.decode body).bind codec.loads with
  | some state => .ok state
  | none => .error .caught

/-- The step and the value of a state. -/
def progressOf (restored : List (String × Body)) : Except StateFault (Int × Int) := do
  let state ← codec.state restored
  let step ← codec.wholeOf (← itemOf state "step")
  let value ← codec.wholeOf (← itemOf state "value")
  pure (step, value)

/-- The value of a state. -/
def valueOf (restored : List (String × Body)) : Except StateFault Int := do
  let state ← codec.state restored
  codec.wholeOf (← itemOf state "value")

/-- The content of the file. -/
def body (step value : Int) : Body := codec.encode (codec.dumps (Json.progress step value))

/-- The directory that is saved. -/
def directory (step value : Int) : Directory Body where
  files := [(stateFile, codec.body step value)]
  distinct := List.nodup_singleton _

end ProgressCodec

/-! ### The calls of the fake -/

/-- What a call of the store raises. -/
inductive StoreError where
  | put (error : CheckpointError)
  | manifest (fault : Fault)
  | fetch (error : CheckpointError)
  | state (fault : StateFault)
  deriving DecidableEq

namespace CheckpointStore

variable (store : CheckpointStore) (codec : ProgressCodec Body Text)

/-- What a reader makes of the newest checkpoint, if there is one that can be read. -/
def newestState {α : Type} (read : List (String × Body) → Except StateFault α) (jobId : JobId)
    (files : Files Body) : Except StoreError (Option α) := do
  match ← (store.latest codec.toCodec jobId files).mapError StoreError.manifest with
  | none => pure none
  | some ref =>
      let restored ← (store.fetch ref files).mapError StoreError.fetch
      match read restored with
      | .ok state => pure (some state)
      | .error .caught => pure none
      | .error fault => .error (.state fault)

/-- The value a completed job ended on. -/
def finalValue (jobId : JobId) (files : Files Body) : Except StoreError (Option Int) :=
  store.newestState codec codec.valueOf jobId files

/-- A store as the fake calls it, with a directory of its own to save from. -/
def progress (text : StoreError → String) (scratch : String) : FakeCheckpoints (Files Body) where
  restore := fun jobId files =>
    ((store.newestState codec codec.progressOf jobId files).mapError text, files)
  put := fun jobId step value moment files =>
    let left := (store.put codec.toCodec jobId step ⟨scratch, some (codec.directory step value)⟩
      moment).whole files
    ((left.1.map fun _ => ()).mapError fun error => text (.put error), left.2)

/-- A checkpoint of a step is there, complete. -/
def Has (jobId : JobId) (step : Int) (files : Files Body) : Prop :=
  (files.find (child (store.base jobId step) manifest)).isSome = true

/-- A manifest that the store lists is that of a checkpoint with a step and a value. -/
def Carries (jobId : JobId) (files : Files Body) (entry : String × Body) (step value : Int) : Prop :=
  ∃ ref restored, reading codec.toCodec jobId entry = .ok (some ref) ∧ ref.step = step ∧
    store.fetch ref files = .ok restored ∧ codec.progressOf restored = .ok (step, value)

/-- The step and the value of the newest checkpoint, which is the one of the highest step; nothing done,
when there is none. -/
def Newest (jobId : JobId) (files : Files Body) (step value : Int) : Prop :=
  (store.found jobId files = [] ∧ step = 0 ∧ value = 0) ∨
    ∃ entry ∈ store.found jobId files, store.Carries codec jobId files entry step value ∧
      ∀ other ∈ store.found jobId files, ∀ less sum,
        store.Carries codec jobId files other less sum → less ≤ step

/-- What a store holds that only the fake has written to: of each job, whose steps go up to a number,
manifests and states of steps with their sums, and with every manifest its state. -/
structure Kept (total : JobId → Int) (files : Files Body) : Prop where
  only : ∀ jobId path body, '/' ∉ jobId.toList → within (child store.root jobId) path = true →
    files.find path = some body → ∃ step, 0 < step ∧ step ≤ total jobId ∧
      ((path = child (store.base jobId step) manifest ∧ ∃ moment,
          body = (codec.directory step (sumOfSteps step)).manifest codec.toCodec step moment) ∨
        (path = child (store.base jobId step) stateFile ∧ body = codec.body step (sumOfSteps step)))
  entire : ∀ jobId step, '/' ∉ jobId.toList → store.Has jobId step files →
    files.find (child (store.base jobId step) stateFile) = some (codec.body step (sumOfSteps step))

end CheckpointStore

/-! ### What a state says -/

theorem sumOfSteps_of_nonpos {steps : Int} (none : steps ≤ 0) : sumOfSteps steps = 0 := by
  unfold sumOfSteps
  rw [Int.toNat_of_nonpos none]
  rfl

namespace ProgressCodec

variable (codec : ProgressCodec Body Text)

theorem state_saved (step value : Int) :
    codec.state [(stateFile, codec.body step value)] = .ok (Json.progress step value) := by
  unfold state body
  rw [List.lookup_cons, beq_self_eq_true, Option.bind_some, codec.decode_encode, Option.bind_some,
    codec.loads_progress]

theorem progressOf_saved (step value : Int) :
    codec.progressOf [(stateFile, codec.body step value)] = .ok (step, value) := by
  unfold progressOf
  rw [codec.state_saved]
  rfl

theorem valueOf_saved (step value : Int) :
    codec.valueOf [(stateFile, codec.body step value)] = .ok value := by
  unfold valueOf
  rw [codec.state_saved]
  rfl

end ProgressCodec

namespace CheckpointStore

/-- The files of a checkpoint are apart from those of every other step and job. -/
theorem place_unique {store : CheckpointStore} {jobId other : JobId} {step also : Int} {name file : String}
    (free : '/' ∉ jobId.toList) (plain : '/' ∉ other.toList)
    (same : child (store.base jobId step) name = child (store.base other also) file) :
    jobId = other ∧ step = also ∧ name = file := by
  have letters := congrArg String.toList same
  simp only [base, toList_child, List.append_assoc, List.cons_append] at letters
  obtain ⟨its, _⟩ := append_slash free plain
    ((List.cons_inj_right _).mp (List.append_cancel_left letters))
  cases String.toList_inj.mp its
  exact ⟨rfl, place_injective same⟩

/-- A file of a checkpoint is a file of its job. -/
theorem within_place (store : CheckpointStore) (jobId : JobId) (step : Int) (name : String) :
    within (child store.root jobId) (child (store.base jobId step) name) = true :=
  within_iff.mpr ⟨child (stepName step) name, by simp [base, child, String.append_assoc]⟩

/-- A file of a checkpoint is in the place of no other job. -/
theorem job_of_within {store : CheckpointStore} {jobId other : JobId} {step : Int} {name : String}
    (plain : '/' ∉ other.toList) (free : '/' ∉ jobId.toList)
    (inside : within (child store.root other) (child (store.base jobId step) name) = true) :
    other = jobId := by
  obtain ⟨rest, same⟩ := within_iff.mp inside
  have letters := congrArg String.toList same
  simp only [base, toList_child, List.append_assoc, List.cons_append] at letters
  exact (String.toList_inj.mp (append_slash free plain
    ((List.cons_inj_right _).mp (List.append_cancel_left letters))).1).symm

/-- No store takes a state for a manifest. -/
theorem lists_state (store : CheckpointStore) (jobId : JobId) (step : Int) :
    store.lists jobId (child (store.base jobId step) stateFile) = false := by
  cases store with
  | onDisk store =>
      have entry : entryOf (child store.root jobId) (child (base (.onDisk store) jobId step) stateFile) = _ :=
        entryOf_child (stepName_free step) stateFile
      simp only [lists, entry]
      refine decide_eq_false fun same => ?_
      exact absurd (child_injective same) (by decide +kernel)
  | inBucket store =>
      show (within _ _ && _) = false
      rw [Bool.and_eq_false_iff]
      refine .inr (Bool.eq_false_iff.mpr fun ends => ?_)
      have whole : manifest.toList <:+ (child (base (.inBucket store) jobId step) stateFile).toList :=
        List.isSuffixOf_iff_suffix.mp ends
      have tail : stateFile.toList <:+ (child (base (.inBucket store) jobId step) stateFile).toList := by
        rw [toList_child]
        exact (List.suffix_cons _ _).trans (List.suffix_append _ _)
      exact absurd (List.suffix_of_suffix_length_le tail whole (by decide +kernel)) (by decide +kernel)

section Keeping

variable {store : CheckpointStore} {codec : ProgressCodec Body Text} {total : JobId → Int}
  {files : Files Body} {jobId : JobId}

/-- A step that was saved is one of the job's. -/
theorem Kept.bounded (kept : store.Kept codec total files) (free : '/' ∉ jobId.toList) {step : Int}
    (has : store.Has jobId step files) : 0 < step ∧ step ≤ total jobId := by
  obtain ⟨body, present⟩ := Option.isSome_iff_exists.mp has
  obtain ⟨saved, positive, most, ⟨place, _⟩ | ⟨place, _⟩⟩ :=
    kept.only jobId _ body free (within_place store jobId step manifest) present
  · obtain ⟨_, rfl, _⟩ := place_unique free free place
    exact ⟨positive, most⟩
  · exact absurd (place_unique free free place).2.2 (by decide +kernel)

/-- A store with nothing in it is kept. -/
theorem kept_nothing (nothing : ∀ path, within store.root path = true → files.find path = none) :
    store.Kept codec total files := by
  have empty : ∀ jobId path, within (child store.root jobId) path = true → files.find path = none := by
    intro jobId path inside
    obtain ⟨name, rfl⟩ := within_iff.mp inside
    exact nothing _ (within_iff.mpr ⟨child jobId name, by simp [child, String.append_assoc]⟩)
  refine ⟨fun jobId path body _ inside present => ?_, fun jobId step _ has => ?_⟩
  · rw [empty jobId path inside] at present
    cases present
  · rw [Has, empty jobId _ (within_place store jobId step manifest)] at has
    cases has

/-- A put of the fake that is run to its end finishes. -/
theorem put_finished (store : CheckpointStore) (codec : ProgressCodec Body Text) (jobId : JobId)
    (step value : Int) (scratch : String) (moment : Time) (files : Files Body) :
    ∃ ref left, (store.put codec.toCodec jobId step ⟨scratch, some (codec.directory step value)⟩
        moment).whole files = (.ok ref, left) ∧
      Finished store codec.toCodec jobId ⟨step, codec.directory step value, moment⟩ files left := by
  let source : Source Body := ⟨scratch, some (codec.directory step value)⟩
  let uploads := (store.uploads jobId ⟨step, source, moment, 0⟩ (codec.directory step value) files).length
  let call : Put Body := ⟨step, source, moment, store.looks + uploads + 1⟩
  have unobstructed : store.obstructed (codec.directory step value) = false := by
    cases store with
    | onDisk store => exact (Bool.or_false _).trans (show within manifest stateFile = false by decide +kernel)
    | inBucket store => rfl
  have finishes : store.Finishes jobId call (codec.directory step value) files := ⟨unobstructed, le_rfl⟩
  have sourced : call.source.directory = some (codec.directory step value) := rfl
  obtain ⟨answered, leaves⟩ := program_finished codec.toCodec sourced finishes
  obtain ⟨ref, answer⟩ := Option.isSome_iff_exists.mp answered
  have finished : Finished store codec.toCodec jobId ⟨call.step, codec.directory step value, call.moment⟩ files
      ((store.program codec.toCodec jobId call).run call.length files).2 := leaves ▸ finished_left
  exact ⟨ref, _, Program.whole_of_answer answer, finished⟩

/-- What the fake saves is there, and all there was. -/
theorem Kept.put (kept : store.Kept codec total files) (free : '/' ∉ jobId.toList) {step : Int}
    (positive : 0 < step) (most : step ≤ total jobId) (scratch : String) (moment : Time) :
    ∃ ref left, (store.put codec.toCodec jobId step
        ⟨scratch, some (codec.directory step (sumOfSteps step))⟩ moment).whole files = (.ok ref, left) ∧
      store.Kept codec total left ∧ store.Has jobId step left ∧
      ∀ other also, '/' ∉ other.toList → store.Has other also files → store.Has other also left := by
  obtain ⟨ref, left, answered, finished⟩ :=
    put_finished store codec jobId step (sumOfSteps step) scratch moment files
  have untouched : ∀ other also name, '/' ∉ other.toList → ¬ (other = jobId ∧ also = step) →
      left.find (child (store.base other also) name) = files.find (child (store.base other also) name) := by
    intro other also name plain apart
    refine finished.apart _ fun file same => apart ?_
    obtain ⟨its, steps, _⟩ := place_unique plain free same
    exact ⟨its, steps⟩
  have published : store.Has jobId step left := Option.isSome_iff_exists.mpr ⟨_, finished.published⟩
  refine ⟨ref, left, answered, ⟨?_, ?_⟩, published, ?_⟩
  · intro other path body plain inside present
    rcases finished.found path body present with rfl | before | ⟨file, member, rfl, rfl⟩
    · cases job_of_within plain free inside
      refine ⟨step, positive, most, .inl ⟨rfl, moment, ?_⟩⟩
      exact Option.some.inj (present.symm.trans finished.published)
    · exact kept.only other path body plain inside before
    · cases job_of_within plain free inside
      cases List.mem_singleton.mp member
      exact ⟨step, positive, most, .inr ⟨rfl, rfl⟩⟩
  · intro other also plain has
    by_cases same : other = jobId ∧ also = step
    · obtain ⟨rfl, rfl⟩ := same
      exact finished.copies (stateFile, _) List.mem_cons_self
        (show stateFile ≠ manifest by decide +kernel)
    · rw [untouched other also stateFile plain same]
      refine kept.entire other also plain ?_
      rw [Has, untouched other also manifest plain same] at has
      exact has
  · intro other also plain has
    by_cases same : other = jobId ∧ also = step
    · obtain ⟨rfl, rfl⟩ := same
      exact published
    · rw [Has, untouched other also manifest plain same]
      exact has

/-- A kept store with checkpoints of a job holds one of the highest step. -/
theorem Kept.newest (kept : store.Kept codec total files) (free : '/' ∉ jobId.toList) :
    (∀ step, ¬ store.Has jobId step files) ∨ ∃ top, store.Has jobId top files ∧
      ∀ step, store.Has jobId step files → step ≤ top := by
  rcases Set.eq_empty_or_nonempty {step | store.Has jobId step files} with empty | some
  · exact .inl fun step has => Set.notMem_empty step (empty ▸ has)
  · have finite : {step | store.Has jobId step files}.Finite := by
      have paths : {path | path ∈ files.paths}.Finite := files.paths.finite_toSet
      refine (paths.preimage (f := fun step => child (store.base jobId step) manifest) ?_).subset ?_
      · intro one _ two _ same
        exact (place_unique free free same).2.1
      · intro step has
        exact Files.mem_paths.mpr (Option.isSome_iff_exists.mp has)
    obtain ⟨top, has, most⟩ := Set.exists_max_image _ id finite some
    exact .inr ⟨top, has, most⟩

/-- What is under a path the store lists is the manifest of a step. -/
theorem Kept.listed (kept : store.Kept codec total files) (free : '/' ∉ jobId.toList) {path : String}
    {body : Body} (listed : store.lists jobId path = true) (present : files.find path = some body) :
    ∃ step moment, path = child (store.base jobId step) manifest ∧
      body = (codec.directory step (sumOfSteps step)).manifest codec.toCodec step moment := by
  obtain ⟨step, _, _, ⟨rfl, moment, rfl⟩ | ⟨rfl, rfl⟩⟩ := kept.only jobId path body free (within_base listed) present
  · exact ⟨step, moment, rfl, rfl⟩
  · rw [lists_state] at listed
    cases listed

/-- A checkpoint of a job is among the manifests of a step, and they are listed. -/
theorem Kept.mem_found (kept : store.Kept codec total files) (free : '/' ∉ jobId.toList)
    {entry : String × Body} (member : entry ∈ store.found jobId files) :
    ∃ step moment, entry = (store.base jobId step,
        (codec.directory step (sumOfSteps step)).manifest codec.toCodec step moment) ∧
      files.find (child (store.base jobId step) manifest) = some entry.2 := by
  obtain ⟨path, listed, present, key⟩ := of_mem_found member
  obtain ⟨step, moment, rfl, content⟩ := kept.listed free listed present
  rw [parent_child manifest_free] at key
  exact ⟨step, moment, Prod.ext key content, present⟩

/-- Every checkpoint that is listed carries the sum of the steps before its own. -/
theorem Kept.carries (kept : store.Kept codec total files) (free : '/' ∉ jobId.toList)
    {entry : String × Body} (member : entry ∈ store.found jobId files) :
    ∃ step, store.Has jobId step files ∧ entry.1 = store.base jobId step ∧
      store.Carries codec jobId files entry step (sumOfSteps step) := by
  obtain ⟨step, moment, rfl, present⟩ := kept.mem_found free member
  have has : store.Has jobId step files := Option.isSome_iff_exists.mpr ⟨_, present⟩
  let saved : Saved Body := ⟨step, codec.directory step (sumOfSteps step), moment⟩
  have copies : ∀ file ∈ saved.directory.files,
      files.find (child (store.base jobId saved.step) file.1) = some file.2 := by
    intro file member
    cases List.mem_singleton.mp member
    exact kept.entire jobId step free has
  have published : files.find (child (store.base jobId saved.step) manifest) =
      some (saved.directory.manifest codec.toCodec saved.step saved.moment) := present
  obtain ⟨restored, fetched, same⟩ := fetch_saved published copies
  refine ⟨step, has, rfl, store.refTo codec.toCodec jobId saved, restored, reading_manifest _ _ _ _ _ _, rfl,
    fetched, ?_⟩
  rw [List.perm_singleton.mp same]
  exact codec.progressOf_saved _ _

/-- The manifest of a step that was saved is listed. -/
theorem Kept.found_has (kept : store.Kept codec total files) (free : '/' ∉ jobId.toList) {step : Int}
    (has : store.Has jobId step files) : ∃ entry ∈ store.found jobId files,
      store.Carries codec jobId files entry step (sumOfSteps step) := by
  obtain ⟨body, present⟩ := Option.isSome_iff_exists.mp has
  have member := CheckpointStore.mem_found present
  refine ⟨_, member, ?_⟩
  obtain ⟨other, has, place, carries⟩ := kept.carries free member
  have spelled : child (store.base jobId step) manifest = child (store.base jobId other) manifest :=
    congrArg (fun key => child key manifest) place
  obtain ⟨_, rfl, _⟩ := place_unique free free spelled
  exact carries

/-- With the highest step a store holds what it then restores. -/
theorem Kept.holds (kept : store.Kept codec total files) (free : '/' ∉ jobId.toList) {top : Int}
    (has : store.Has jobId top files) (most : ∀ step, store.Has jobId step files → step ≤ top) :
    ∃ moment, store.Holds codec.toCodec jobId
      (some ⟨top, codec.directory top (sumOfSteps top), moment⟩) files := by
  obtain ⟨body, present⟩ := Option.isSome_iff_exists.mp has
  obtain ⟨step, moment, place, rfl⟩ := kept.listed free (lists_manifest store jobId top) present
  obtain ⟨_, rfl, _⟩ := place_unique free free place
  refine ⟨moment, ⟨?_, ?_, ?_⟩⟩
  · rintro saved ⟨⟩
    exact present
  · rintro saved ⟨⟩ file member
    cases List.mem_singleton.mp member
    exact kept.entire jobId top free has
  · intro path body listed present
    obtain ⟨step, other, rfl, rfl⟩ := kept.listed free listed present
    rcases lt_or_eq_of_le (most step (Option.isSome_iff_exists.mpr ⟨_, present⟩)) with less | rfl
    · let older : Saved Body := ⟨step, codec.directory step (sumOfSteps step), other⟩
      have below : older.step < top := less
      exact .inr (outdated_manifest below rfl _)
    · exact .inl ⟨_, rfl, rfl⟩

/-- What a reader makes of a kept store: nothing, when there is no checkpoint, or the state of the highest
step. -/
theorem Kept.newestState (kept : store.Kept codec total files) (free : '/' ∉ jobId.toList) :
    ((∀ step, ¬ store.Has jobId step files) ∧
        ∀ {α : Type} (read : List (String × Body) → Except StateFault α),
          store.newestState codec read jobId files = .ok none) ∨
      ∃ top, store.Has jobId top files ∧ (∀ step, store.Has jobId step files → step ≤ top) ∧
        ∀ {α : Type} (read : List (String × Body) → Except StateFault α) (state : α),
          read [(stateFile, codec.body top (sumOfSteps top))] = .ok state →
            store.newestState codec read jobId files = .ok (some state) := by
  rcases kept.newest free with empty | ⟨top, has, most⟩
  · refine .inl ⟨empty, fun read => ?_⟩
    have holds : store.Holds codec.toCodec jobId none files := by
      refine ⟨fun saved top => (Option.not_mem_none _ top).elim,
        fun saved top => (Option.not_mem_none _ top).elim, fun path body listed present => ?_⟩
      obtain ⟨step, moment, rfl, rfl⟩ := kept.listed free listed present
      exact absurd (Option.isSome_iff_exists.mpr ⟨_, present⟩) (empty step)
    unfold CheckpointStore.newestState
    rw [holds.latest]
    rfl
  · refine .inr ⟨top, has, most, fun read state reads => ?_⟩
    obtain ⟨moment, holds⟩ := kept.holds free has most
    obtain ⟨restored, fetched, same⟩ := holds.fetch rfl
    cases List.perm_singleton.mp same
    unfold CheckpointStore.newestState
    rw [holds.latest]
    show ((store.fetch _ files).mapError StoreError.fetch >>= _) = _
    rw [fetched]
    show (match read [(stateFile, codec.body top (sumOfSteps top))] with
      | .ok state => pure (some state)
      | .error .caught => pure none
      | .error fault => .error (.state fault) : Except StoreError (Option _)) = _
    rw [reads]
    rfl

end Keeping

end CheckpointStore

end GpuBroker.Broker
